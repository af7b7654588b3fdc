import DbmlRestore.Json.Parser
import DbmlRestore.Toml.Fault
import DbmlRestore.Value

/-!
# Scalars of TOML

The strings, numbers, dates and times of a TOML text, each read from the front of
what is left of the text.

* A string in double quotes has escapes, one in single quotes has none; three
  quotes make it span lines, and then up to two more quotes before the closing
  three belong to it.
* In a string that spans lines, a backslash at the end of a line takes the blanks
  and the line ends after it away.
* A number may have single underscores between its digits. A zero is not followed
  by a digit: `012` is `0` and some other text.
* A date is followed by a time if a letter `T` or a space and a whole time follow.
-/

namespace DbmlRestore

namespace Toml

/-! ## Blanks and comments -/

/-- The blanks inside of a line. -/
def isSpace (c : Char) : Bool := c == ' ' || c == '\t'

/-- The text after the blanks inside of a line. -/
def skipSpace (t : Text) : Text := t.dropWhile isSpace

/-- The text after blanks and line ends. -/
def skipSpaceLines (t : Text) : Text := t.dropWhile fun c => isSpace c || c == '\n'

/-- The control characters that may not stand in a line. -/
def isIllegal (c : Char) : Bool := (c.toNat < 32 && c != '\t') || c.toNat == 127

/-- The control characters that may not stand in a string of several lines. -/
def isIllegalInLines (c : Char) : Bool := isIllegal c && c != '\n'

/-- Refuses a part of a text that holds a character it may not hold; `rest` follows
    the part. -/
def refuse (illegal : Char → Bool) (part rest : Text) : Except Stop Unit :=
  match part.dropWhile (!illegal ·) with
  | [] => .ok ()
  | c :: more => .error (.fault (.invalid c) (c :: more ++ rest))

/-- The text after a comment, if one starts it. -/
def skipComment : Text → Except Stop Text
  | '#' :: t => do
    let rest := t.dropWhile (· != '\n')
    refuse isIllegal (t.takeWhile (· != '\n')) rest
    return rest
  | t => .ok t

/-- The text after blanks, line ends and comments. -/
def skipFiller : (fuel : Nat) → Text → Except Stop Text
  | 0, t => .ok t
  | fuel + 1, t =>
    match skipSpaceLines t with
    | '#' :: t => do skipFiller fuel (← skipComment ('#' :: t))
    | t => .ok t

/-! ## Strings -/

/-- The character with a number written by `count` hexadecimal digits. -/
def hexChar (count : Nat) : Reader Text := fun t =>
  match (t.take count).mapM Json.hexDigit? with
  | some digits =>
    let n := digits.foldl (fun n d => n * 16 + d) 0
    if digits.length ≠ count then .error (.fault .hex t)
    else if n.isValidChar then .ok ([Char.ofNat n], t.drop count)
    else .error (.fault .scalar (t.drop count))
  | none => .error (.fault .hex t)

/-- The character that a letter stands for after a backslash. -/
def unescape? : Char → Option Char
  | 'b' => some '\x08'
  | 't' => some '\t'
  | 'n' => some '\n'
  | 'f' => some '\x0c'
  | 'r' => some '\r'
  | '"' => some '"'
  | '\\' => some '\\'
  | _ => none

/-- What an escape stands for, the text starting after the backslash. -/
def escape (multiline : Bool) : Reader Text
  | [] => .error (.fault .backslash [])
  | 'u' :: t => hexChar 4 t
  | 'U' :: t => hexChar 8 t
  | c :: t =>
    if multiline && c == '\n' then .ok ([], skipSpaceLines t)
    else if multiline && isSpace c then
      match skipSpace t with
      | [] => .ok ([], [])
      | '\n' :: t => .ok ([], skipSpaceLines t)
      | t => .error (.fault .backslash t)
    else
      match unescape? c with
      | some x => .ok ([x], t)
      | none => .error (.fault .backslash t)

/-- The rest of a string with escapes, up to its closing quotes. -/
def basicRest (multiline : Bool) : (fuel : Nat) → Reader Text
  | 0, t => .error (.fault .unterminated t)
  | _ + 1, [] => .error (.fault .unterminated [])
  | fuel + 1, '"' :: t =>
    if multiline then
      match Text.after? ['"', '"'] t with
      | some t => .ok ([], t)
      | none => do
        let (more, t) ← basicRest multiline fuel t
        return ('"' :: more, t)
    else .ok ([], t)
  | fuel + 1, '\\' :: t => do
    let (cs, t) ← escape multiline t
    let (more, t) ← basicRest multiline fuel t
    return (cs ++ more, t)
  | fuel + 1, c :: t =>
    if (if multiline then isIllegalInLines c else isIllegal c) then
      .error (.fault (.illegal c) (c :: t))
    else do
      let (more, t) ← basicRest multiline fuel t
      return (c :: more, t)

/-- The rest of a string with escapes on one line. -/
def basic : Reader Text := fun t => basicRest false (t.length + 1) t

/-- The rest of a string without escapes, up to the closing quotes. -/
def literal (closing : Text) (illegal : Char → Bool) : Reader Text := fun t =>
  match Text.cutBefore? closing t with
  | none => .error (.fault (.expected closing) [])
  | some (body, rest) => do
    refuse illegal body rest
    return (body, rest.drop closing.length)

/-- The rest of a string without escapes on one line. -/
def literalLine : Reader Text := literal ['\x27'] isIllegal

/-- A line end right after the opening quotes is not part of a string. -/
def dropLineEnd : Text → Text
  | '\n' :: t => t
  | t => t

/-- Up to two quotes after the closing ones belong to a string of several lines. -/
def extraQuotes (quote : Char) (body : Text) : Text → Text × Text
  | a :: b :: t =>
    if a ≠ quote then (body, a :: b :: t)
    else if b ≠ quote then (body ++ [quote], b :: t)
    else (body ++ [quote, quote], t)
  | [a] => if a = quote then (body ++ [quote], []) else (body, [a])
  | [] => (body, [])

/-- The rest of a string of several lines with escapes. -/
def basicLines : Reader Text := fun t => do
  let (body, t) ← basicRest true (t.length + 1) (dropLineEnd t)
  return extraQuotes '"' body t

/-- The rest of a string of several lines without escapes. -/
def literalLines : Reader Text := fun t => do
  let (body, t) ← literal ['\x27', '\x27', '\x27'] isIllegalInLines (dropLineEnd t)
  return extraQuotes '\x27' body t

/-! ## Dates and times -/

/-- Exactly `count` digits of base ten. -/
def digits? (count : Nat) (t : Text) : Option (Nat × Text) :=
  let ds := t.take count
  if ds.length = count && ds.all Json.isDigit then some (Json.ofDigits ds, t.drop count) else none

/-- Two digits that write a number in a range. -/
def two? (low high : Nat) (t : Text) : Option (Nat × Text) := do
  let (n, t) ← digits? 2 t
  if low ≤ n ∧ n ≤ high then some (n, t) else none

/-- The millionths of a second, if a point and a digit follow; digits after the
    sixth one are dropped. -/
def microseconds : Text → Nat × Text
  | '.' :: t =>
    match t.takeWhile Json.isDigit with
    | [] => (0, '.' :: t)
    | ds =>
      let six := ds.take 6
      (Json.ofDigits (six ++ List.replicate (6 - six.length) '0'), t.dropWhile Json.isDigit)
  | t => (0, t)

/-- A time of day. -/
def clock? (t : Text) : Option (Clock × Text) := do
  let (hour, t) ← two? 0 23 t
  let t ← Text.after? [':'] t
  let (minute, t) ← two? 0 59 t
  let t ← Text.after? [':'] t
  let (second, t) ← two? 0 59 t
  let (micro, t) := microseconds t
  return (⟨hour, minute, second, micro⟩, t)

/-- An offset in hours and minutes, as a number of minutes. -/
def offsetRest? (t : Text) : Option (Int × Text) := do
  let (hours, t) ← two? 0 23 t
  let t ← Text.after? [':'] t
  let (minutes, t) ← two? 0 59 t
  return ((hours * 60 + minutes : Nat), t)

/-- The offset from universal time, if one follows. -/
def offset : Text → Option Int × Text
  | 'Z' :: t => (some 0, t)
  | 'z' :: t => (some 0, t)
  | '+' :: t => (offsetRest? t).elim (none, '+' :: t) fun (m, rest) => (some m, rest)
  | '-' :: t => (offsetRest? t).elim (none, '-' :: t) fun (m, rest) => (some (-m), rest)
  | t => (none, t)

/-- The time after a date, if one follows. -/
def timeAfterDate? : Text → Option (Clock × Text)
  | 'T' :: t => clock? t
  | 't' :: t => clock? t
  | ' ' :: t => clock? t
  | _ => none

/-- A date, with months up to twelve and days up to thirty-one. -/
def date? (t : Text) : Option (Date × Text) := do
  let (year, t) ← digits? 4 t
  let t ← Text.after? ['-'] t
  let (month, t) ← two? 1 12 t
  let t ← Text.after? ['-'] t
  let (day, t) ← two? 1 31 t
  return (⟨year, month, day⟩, t)

/-- A date, or a date and a time. -/
def dateTime? (t : Text) : Option (Date × Moment × Text) := do
  let (d, t) ← date? t
  match timeAfterDate? t with
  | some (c, t) =>
    let (o, t) := offset t
    return (d, .dateTime d c o, t)
  | none => return (d, .date d, t)

/-! ## Numbers -/

/-- Digits with single underscores between them, the text starting after a digit. -/
def moreDigits (isDigit : Char → Bool) : Text → Text × Text
  | '_' :: d :: t =>
    if isDigit d then
      let (ds, rest) := moreDigits isDigit t
      (d :: ds, rest)
    else ([], '_' :: d :: t)
  | d :: t =>
    if isDigit d then
      let (ds, rest) := moreDigits isDigit t
      (d :: ds, rest)
    else ([], d :: t)
  | [] => ([], [])

/-- Digits with single underscores between them. -/
def digitRun? (isDigit : Char → Bool) : Text → Option (Text × Text)
  | d :: t =>
    if isDigit d then
      let (ds, rest) := moreDigits isDigit t
      some (d :: ds, rest)
    else none
  | [] => none

/-- The digits of a base up to sixteen. -/
def isDigitOf (base : Nat) (c : Char) : Bool :=
  (Json.hexDigit? c).any (· < base)

/-- The base that a letter stands for after a zero. -/
def baseOf? : Char → Option Nat
  | 'x' => some 16
  | 'b' => some 2
  | 'o' => some 8
  | _ => none

/-- An integer in a base other than ten. -/
def radix? : Text → Option (Nat × Text)
  | '0' :: c :: t => do
    let base ← baseOf? c
    let (ds, t) ← digitRun? (isDigitOf base) t
    return (ds.foldl (fun n d => n * base + (Json.hexDigit? d).getD 0) 0, t)
  | _ => none

/-- The digits before the point: a zero, or digits that do not start with one. -/
def whole? : Text → Option (Text × Text)
  | '0' :: t => some (['0'], t)
  | t => digitRun? Json.isDigit t

/-- The digits after a point, if a point and a digit follow. -/
def fraction : Text → Option Text × Text
  | '.' :: t =>
    (digitRun? Json.isDigit t).elim (none, '.' :: t) fun (ds, rest) => (some ds, rest)
  | t => (none, t)

/-- The exponent with its sign, the text starting after the letter. -/
def exponentRest? : Text → Option (Int × Text)
  | '-' :: t => (digitRun? Json.isDigit t).map fun (ds, rest) => (-(Json.ofDigits ds : Int), rest)
  | '+' :: t => (digitRun? Json.isDigit t).map fun (ds, rest) => ((Json.ofDigits ds : Int), rest)
  | t => (digitRun? Json.isDigit t).map fun (ds, rest) => ((Json.ofDigits ds : Int), rest)

/-- The exponent, if one follows. -/
def exponent : Text → Option Int × Text
  | 'e' :: t => (exponentRest? t).elim (none, 'e' :: t) fun (e, rest) => (some e, rest)
  | 'E' :: t => (exponentRest? t).elim (none, 'E' :: t) fun (e, rest) => (some e, rest)
  | t => (none, t)

/-- A number in base ten, without its sign. -/
def magnitude? (negative : Bool) (t : Text) : Option (Json.Numeral × Text) := do
  let (digits, t) ← whole? t
  let (f, t) := fraction t
  let (e, t) := exponent t
  return (⟨negative, digits, f, e⟩, t)

/-- A number in base ten. -/
def decimal? : Text → Option (Json.Numeral × Text)
  | '-' :: t => magnitude? true t
  | '+' :: t => magnitude? false t
  | t => magnitude? false t

/-- The value of a number in base ten. -/
def numberValue (n : Json.Numeral) : Except Stop Value :=
  match n.value with
  | .ok v => .ok (Value.ofJson v)
  | .error (.digits count) => .error (.digits count)
  | .error (.fault _ rest) => .error (.fault .value rest)

/-- The words that are values. -/
def words : List (Text × Value) :=
  [("inf".toList, .float (.infinity false)), ("nan".toList, .float .nan),
    ("-inf".toList, .float (.infinity true)), ("+inf".toList, .float (.infinity false)),
    ("-nan".toList, .float .nan), ("+nan".toList, .float .nan)]

/-- The value at the front of a text that is a word. -/
def word? (t : Text) : Option (Value × Text) :=
  words.findSome? fun (w, v) => (Text.after? w t).map (v, ·)

/-- A date, a time, a number or a word. -/
def scalar : Reader Value := fun t =>
  match dateTime? t with
  | some (d, m, rest) => if d.isValid then .ok (.moment m, rest) else .error (.fault .date t)
  | none =>
    match clock? t with
    | some (c, rest) => .ok (.moment (.time c), rest)
    | none =>
      match radix? t with
      | some (n, rest) => .ok (.int n, rest)
      | none =>
        match decimal? t with
        | some (n, rest) => do return (← numberValue n, rest)
        | none => (word? t).elim (.error (.fault .value t)) .ok

end Toml

end DbmlRestore
