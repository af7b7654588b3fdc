import DbmlRestore.Text.Digit
import DbmlRestore.Text.Name
import DbmlRestore.Text.Quoted

/-!
# The tokens of an expression

The parameters of a tag are an expression (`Literal.check`), and this module cuts it into
names, numbers, strings and signs. There are two kinds of faults:

* one that is found while cutting, such as a string without an end, and that counts before
  all that is wrong with the tokens (`Literal.cut` fails);
* one at the end, such as a bracket that is still open, and that counts only if the tokens
  are read that far (`Cutting.ending`).

Brackets are round or curly: there are no square ones in a tag.
-/

namespace DbmlRestore

namespace Cli

namespace Literal

/-! ## Tokens -/

/-- A token of an expression. -/
inductive Token where
  /-- A name or keyword. -/
  | name (t : Text)
  /-- A number, imaginary or not; if it is an integer with too many digits, their
      count. -/
  | number (imaginary : Bool) (excess : Option Nat)
  /-- A string, with the letters before its quotes in lower case, and what stands between
      the quotes. -/
  | string (letters body : Text)
  /-- An operator, a bracket or another sign. -/
  | sign (t : Text)
  /-- A character that has no meaning. -/
  | stray (c : Char)
deriving Repr, DecidableEq

/-- The keywords, which are not names. -/
def keywords : List String :=
  ["False", "None", "True", "and", "as", "assert", "async", "await", "break", "class",
    "continue", "def", "del", "elif", "else", "except", "finally", "for", "from", "global",
    "if", "import", "in", "is", "lambda", "nonlocal", "not", "or", "pass", "raise", "return",
    "try", "while", "with", "yield"]

namespace Token

/-- Whether a token is a name. -/
def isName : Token → Bool
  | name t => !keywords.any (·.toList = t)
  | _ => false

/-- Whether a token is a name that is the start of a word which is a keyword elsewhere. -/
def isSoft : Token → Bool
  | name t => ["_", "case", "match"].any fun w => (Text.after? t w.toList).isSome
  | _ => false

/-- Whether a token is a string. -/
def isString : Token → Bool
  | string _ _ => true
  | _ => false

/-- Whether a token is a number. -/
def isNumber : Token → Bool
  | number _ _ => true
  | _ => false

/-- Whether a token is the given keyword, name or sign. -/
def isWord (w : String) : Token → Bool
  | name t => t = w.toList
  | sign t => t = w.toList
  | _ => false

end Token

/-! ## Numbers -/

/-- The message for a number of a kind that is not written well. -/
def badNumber (kind : String) : Text :=
  "invalid ".toList ++ kind.toList ++ " literal".toList

/-- Whether a character may belong to a name, as far as its size tells. -/
def looksLikeName (c : Char) : Bool :=
  c.isAlphanum || c == '_' || 0x80 ≤ c.toNat

/-- Whether a text starts with a keyword that may stand right behind a number. The keywords
    of two letters that start with `i` are known by these letters, the others only as whole
    words. -/
def startsFollower (t : Text) : Bool :=
  ["if", "in", "is"].any (fun w => (Text.after? w.toList t).isSome) ||
    ["and", "else", "for", "or", "not"].any fun w =>
      match Text.after? w.toList t with
      | some (c :: _) => !looksLikeName c
      | some [] => true
      | none => false

/-- What follows a number of a kind: no other character of a name. -/
def afterNumber (kind : String) (t : Text) : Except Text Text :=
  if startsFollower t then .ok t
  else
    match t with
    | [] => .ok []
    | c :: _ => if c.isAlphanum || c == '_' then .error (badNumber kind) else .ok t

/-- The digits after the first one, with single underscores between them, and what
    follows. -/
def decimalTail : Text → Except Text (Text × Text)
  | [] => .ok ([], [])
  | ['_'] => .error (badNumber "decimal")
  | c :: d :: t =>
    if c.isDigit then (decimalTail (d :: t)).map fun (ds, rest) => (c :: ds, rest)
    else if c = '_' then
      if d.isDigit then (decimalTail t).map fun (ds, rest) => (d :: ds, rest)
      else .error (badNumber "decimal")
    else .ok ([], c :: d :: t)
  | [c] => if c.isDigit then .ok ([c], []) else .ok ([], [c])

/-- What follows the digits of a number in another base, with single underscores between
    them; `needed` says that there must be one more. -/
def radixTail (digit : Char → Bool) (fault : Option Char → Text) :
    (needed : Bool) → Text → Except Text Text
  | true, [] => .error (fault none)
  | false, [] => .ok []
  | needed, c :: t =>
    if digit c then radixTail digit fault false t
    else if needed then .error (fault (some c))
    else if c = '_' then radixTail digit fault true t
    else if c.isDigit then .error (fault (some c))
    else .ok (c :: t)

/-- The number in another base that starts after the letter for the base. -/
def radixNumber (kind : String) (digit : Char → Bool) (t : Text) : Except Text (Token × Text) :=
  let fault : Option Char → Text
    | some c =>
      if c.isDigit then
        "invalid digit \x27".toList ++ c :: "\x27 in ".toList ++ kind.toList ++ " literal".toList
      else badNumber kind
    | none => badNumber kind
  let digits := match t with
    | '_' :: t => t
    | t => t
  do
    let rest ← radixTail digit fault true digits
    return (.number false none, ← afterNumber kind rest)

/-- The end of a decimal number, after its whole part and its fraction: an exponent and
    the letter for an imaginary number. The last argument is the token if there is
    neither. -/
def numberEnd (t : Text) (plain : Token) : Except Text (Token × Text) := do
  let imaginary (t : Text) (plain : Token) : Except Text (Token × Text) := do
    match t with
    | c :: rest =>
      if c = 'j' ∨ c = 'J' then return (.number true none, ← afterNumber "imaginary" rest)
      else return (plain, ← afterNumber "decimal" t)
    | [] => return (plain, [])
  match t with
  | e :: rest =>
    if e = 'e' ∨ e = 'E' then
      let (signed, digits) := match rest with
        | '+' :: rest => (true, rest)
        | '-' :: rest => (true, rest)
        | rest => (false, rest)
      match digits with
      | d :: digits =>
        if d.isDigit then
          let (_, rest) ← decimalTail digits
          imaginary rest (.number false none)
        else if signed then .error (badNumber "decimal")
        else return (plain, ← afterNumber "decimal" t)
      | [] =>
        if signed then .error (badNumber "decimal")
        else return (plain, ← afterNumber "decimal" t)
    else imaginary t plain
  | [] => return (plain, [])

/-- The fraction of a number, after its point, and the end of the number. -/
def fraction (t : Text) : Except Text (Token × Text) := do
  match t with
  | c :: rest =>
    if c.isDigit then
      let (_, rest) ← decimalTail rest
      numberEnd rest (.number false none)
    else numberEnd t (.number false none)
  | [] => numberEnd [] (.number false none)

/-- Whether a letter at the front of a text continues a decimal number. -/
def continuesNumber : Text → Bool
  | c :: _ => c ∈ ['e', 'E', 'j', 'J']
  | [] => false

/-- The number that starts with a digit. -/
def numberToken (first : Char) (t : Text) : Except Text (Token × Text) :=
  let decimal : Except Text (Token × Text) := do
    let (digits, rest) ← decimalTail t
    match rest with
    | '.' :: rest => fraction rest
    | rest =>
      if first = '0' ∧ digits.any (· != '0') ∧ !continuesNumber rest then
        .error ("leading zeros in decimal integer literals are not permitted; ".toList ++
          "use an 0o prefix for octal integers".toList)
      else
        let count := digits.length + 1
        numberEnd rest
          (.number false (if first != '0' && digitLimit < count then some count else none))
  match first, t with
  | '0', c :: rest =>
    if c = 'x' ∨ c = 'X' then
      radixNumber "hexadecimal"
        (fun d => d.isDigit || ('a' ≤ d && d ≤ 'f') || ('A' ≤ d && d ≤ 'F')) rest
    else if c = 'o' ∨ c = 'O' then radixNumber "octal" (fun d => '0' ≤ d && d ≤ '7') rest
    else if c = 'b' ∨ c = 'B' then radixNumber "binary" (fun d => d = '0' ∨ d = '1') rest
    else decimal
  | _, _ => decimal

/-! ## Strings -/

/-- The body of a string in single quotes `mark`, and what follows it. -/
def shortBody? (mark : Char) : Text → Option (Text × Text)
  | [] => none
  | ['\\'] => none
  | '\\' :: c :: t => (shortBody? mark t).map fun (body, rest) => ('\\' :: c :: body, rest)
  | c :: t =>
    if c = mark then some ([], t)
    else if c = '\n' then none
    else (shortBody? mark t).map fun (body, rest) => (c :: body, rest)

/-- The body of a string in triple quotes `mark`, and what follows it. -/
def longBody? (mark : Char) : Text → Option (Text × Text)
  | [] => none
  | ['\\'] => none
  | '\\' :: c :: t => (longBody? mark t).map fun (body, rest) => ('\\' :: c :: body, rest)
  | c :: t =>
    if List.isPrefixOf [mark, mark, mark] (c :: t) then some ([], t.drop 2)
    else (longBody? mark t).map fun (body, rest) => (c :: body, rest)

/-- The string that starts after its first quote `mark`. -/
def stringToken (letters : Text) (mark : Char) (t : Text) : Except Text (Token × Text) :=
  match Text.after? [mark, mark] t with
  | some inner =>
    match longBody? mark inner with
    | some (body, rest) => .ok (.string letters body, rest)
    | none => .error "unterminated triple-quoted string literal (detected at line 1)".toList
  | none =>
    match shortBody? mark t with
    | some (body, rest) => .ok (.string letters body, rest)
    | none => .error "unterminated string literal (detected at line 1)".toList

/-- The letters that may stand before a string. -/
def stringLetters : List String := ["b", "u", "r", "f", "br", "rb", "fr", "rf"]

/-! ## Names -/

/-- The message for a character that cannot be in an expression. -/
def badChar (c : Char) : Text :=
  let code := "U+".toList ++ (Text.hex 4 c.toNat).map Char.toUpper
  if Text.isPrintable c then
    "invalid character \x27".toList ++ c :: "\x27 (".toList ++ code ++ [')']
  else "invalid non-printable character ".toList ++ code

/-- The first character of a word that cannot be in a name. -/
def firstBad? : Text → Option Char
  | [] => none
  | c :: t =>
    if !Text.startsName c then some c else t.find? fun d => !Text.continuesName d

/-- The word at the front of a text: a name, a keyword, or a string with letters before
    its quotes. -/
def wordToken (t : Text) : Except Text (Token × Text) :=
  let run := t.takeWhile looksLikeName
  let rest := t.dropWhile looksLikeName
  let letters := run.map Char.toLower
  let plain : Except Text (Token × Text) :=
    match firstBad? run with
    | some c => .error (badChar c)
    | none => .ok (.name run, rest)
  match rest with
  | mark :: inner =>
    if (mark = '"' ∨ mark = '\x27') ∧ stringLetters.any (·.toList = letters) then
      stringToken letters mark inner
    else plain
  | [] => plain

/-! ## Cutting -/

/-- The signs of more than one character, the longest first. -/
def longSigns : List String :=
  ["**=", "...", "//=", ">>=", "<<=", "!=", "%=", "&=", "**", "*=", "+=", "-=", "->", "//",
    "/=", ":=", "<<", "<=", "<>", "==", ">=", ">>", "@=", "^=", "|="]

/-- The signs of one character that are not brackets. -/
def shortSigns : Text := "%&*+,-./:;<=>@^|~".toList

/-- A sign at the front of a text. -/
def sign? (t : Text) : Option (Text × Text) :=
  match longSigns.findSome? fun s => (Text.after? s.toList t).map (s.toList, ·) with
  | some found => some found
  | none =>
    match t with
    | c :: t => if shortSigns.contains c then some ([c], t) else none
    | [] => none

/-- The bracket that closes an open one. -/
def closing (c : Char) : Char := if c = '(' then ')' else '\x7d'

/-- The greatest number of brackets that may be open. -/
def bracketLimit : Nat := 200

/-- The open brackets, innermost first, after a bracket. -/
def afterBracket (opened : List Char) (c : Char) : Except Text (List Char) :=
  if c = '(' ∨ c = '\x7b' then
    if bracketLimit ≤ opened.length then .error "too many nested parentheses".toList
    else .ok (c :: opened)
  else
    match opened with
    | [] => .error ("unmatched \x27".toList ++ [c, '\x27'])
    | o :: outer =>
      if closing o = c then .ok outer
      else .error ("closing parenthesis \x27".toList ++ c ::
        "\x27 does not match opening parenthesis \x27".toList ++ [o, '\x27'])

/-- An expression cut into tokens. -/
structure Cutting where
  /-- The tokens, each with the number of brackets that are open after it. -/
  tokens : List (Token × Nat)
  /-- What is wrong at the end. -/
  ending : Option Text
deriving Repr, DecidableEq

/-- The next token of a text that does not start with a blank, and the open brackets
    after it. -/
def nextToken (opened : List Char) (c : Char) (t : Text) :
    Except Text (Token × Text × List Char) := do
  let same (found : Token × Text) : Token × Text × List Char := (found.1, found.2, opened)
  if c ∈ ['(', ')', '\x7b', '\x7d'] then return (.sign [c], t, ← afterBracket opened c)
  else if c.isDigit then return same (← numberToken c t)
  else if c = '"' ∨ c = '\x27' then return same (← stringToken [] c t)
  else if looksLikeName c then return same (← wordToken (c :: t))
  else
    match c, t with
    | '.', d :: rest =>
      if d.isDigit then return same (← fraction (d :: rest))
      else return same (((sign? (c :: t)).map fun (s, r) => (.sign s, r)).getD (.stray c, t))
    | _, _ =>
      match sign? (c :: t) with
      | some (s, rest) => return same (.sign s, rest)
      | none => if Text.isPrintable c then return same (.stray c, t) else .error (badChar c)

/-- Cuts what is left of an expression, with the open brackets; `fuel` bounds the number
    of its characters. -/
def cutFrom : (fuel : Nat) → List Char → Text → Except Text Cutting
  | 0, _, _ => .ok ⟨[], none⟩
  | fuel + 1, opened, t =>
    match t with
    | [] =>
      .ok ⟨[], opened.head?.map fun o => '\x27' :: o :: "\x27 was never closed".toList⟩
    | c :: t =>
      if c ∈ [' ', '\t', '\x0c', '\n', '\r'] then cutFrom fuel opened t
      else if c = '#' then cutFrom fuel opened (t.dropWhile (· != '\n'))
      else if c = '\\' then
        .ok ⟨[], some "unexpected character after line continuation character".toList⟩
      else do
        let (token, rest, opened) ← nextToken opened c t
        let cutting ← cutFrom fuel opened rest
        return { cutting with tokens := (token, opened.length) :: cutting.tokens }

/-- Cuts an expression into tokens. -/
def cut (t : Text) : Except Text Cutting :=
  if t.contains '\x00' then .error "source code string cannot contain null bytes".toList
  else cutFrom (t.length + 1) [] t

end Literal

end Cli

end DbmlRestore
