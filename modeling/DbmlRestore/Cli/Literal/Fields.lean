import DbmlRestore.Cli.Literal.Strings

/-!
# Strings with fields

A string with an `f` before it has *fields* in curly brackets: an expression, an equals sign
that asks for the text of the expression too, a conversion after an exclamation mark, and a
format after a colon, which may have fields of its own. Two curly brackets in a row stand for
one that is text.

What is wrong with a field is found as the string is read, from the left
(`fieldsFault?`); the expressions are checked by whoever knows the grammar.

Strings in a row are one string, so either all of them are strings of bytes or none is
(`stringsFault?`).
-/

namespace DbmlRestore

namespace Cli

namespace Literal

/-- The message for a field without an end. -/
def openField : Text := "f-string: expecting \x27\x7d\x27".toList

/-! ## Text between fields -/

/-- Where a reading is in the text between fields. -/
inductive TextPlace where
  /-- Outside of any escape. -/
  | plain
  /-- After a backslash. -/
  | escape
  /-- After a backslash and the letter for a name. -/
  | name
  /-- In the name of a character. -/
  | inName
deriving Repr, DecidableEq

/-- The text before the next field, what follows it, and whether a bracket that stands for
    itself has been read as the last of it. Brackets are not doubled in a format, which is
    `nested` in a field. -/
def plainPart (raw nested : Bool) : TextPlace → Text → Except Text (Text × Text × Bool)
  | _, [] => .ok ([], [], false)
  | .inName, c :: t =>
    (plainPart raw nested (if c = '\x7d' then .plain else .inName) t).map (.map (c :: ·) id)
  | .name, c :: t =>
    (plainPart raw nested (if c = '\x7b' then .inName else .plain) t).map (.map (c :: ·) id)
  | place, c :: t =>
    if place = .plain ∧ c = '\\' ∧ !raw then
      (plainPart raw nested .escape t).map (.map (c :: ·) id)
    else if place = .escape ∧ c = 'N' then
      (plainPart raw nested .name t).map (.map (c :: ·) id)
    else if c = '\x7b' ∨ c = '\x7d' then
      if nested then .ok ([], c :: t, false)
      else if t.head? = some c then .ok ([c], t.drop 1, true)
      else if c = '\x7d' then
        .error "f-string: single \x27\x7d\x27 is not allowed".toList
      else .ok ([], c :: t, false)
    else (plainPart raw nested .plain t).map (.map (c :: ·) id)

/-! ## Expressions in fields -/

/-- The open brackets after a bracket in a field. -/
def afterFieldBracket (opened : List Char) (c : Char) : Except Text (List Char) :=
  if c = '(' ∨ c = '\x7b' then
    if bracketLimit ≤ opened.length then
      .error "f-string: too many nested parenthesis".toList
    else .ok (c :: opened)
  else (afterBracket opened c).mapError ("f-string: ".toList ++ ·)

/-- The expression of a field, and what follows it. `skip` counts characters that are read
    with the one before them, and `quote` is the quotes of the string that is being read, and
    whether they are triple. -/
def fieldExpression : (skip : Nat) → (quote : Option (Char × Bool)) → (opened : List Char) →
    Text → Except Text (Text × Text)
  | _, some _, _, [] => .error "f-string: unterminated string".toList
  | _, none, o :: _, [] => .error ("f-string: unmatched \x27".toList ++ [o, '\x27'])
  | _, none, [], [] => .ok ([], [])
  | k + 1, quote, opened, c :: t =>
    (fieldExpression k quote opened t).map (.map (c :: ·) id)
  | 0, quote, opened, c :: t =>
    let on (skip : Nat) (quote : Option (Char × Bool)) (opened : List Char) :=
      (fieldExpression skip quote opened t).map (.map (c :: ·) id)
    let doubled := List.isPrefixOf [c, c] t
    if c = '\\' then .error "f-string expression part cannot include a backslash".toList
    else
      match quote with
      | some (mark, triple) =>
        if c ≠ mark then on 0 quote opened
        else if !triple then on 0 none opened
        else if doubled then on 2 none opened
        else on 0 quote opened
      | none =>
        if c = '"' ∨ c = '\x27' then
          if doubled then on 2 (some (c, true)) opened else on 0 (some (c, false)) opened
        else if c = '#' then
          .error "f-string expression part cannot include \x27#\x27".toList
        else if opened.isEmpty ∧ c ∈ ['!', '=', '<', '>'] ∧ t.head? = some '=' then
          on 1 none opened
        else if opened.isEmpty ∧ c ∈ ['!', ':', '\x7d', '='] then .ok ([], c :: t)
        else if c ∈ ['(', ')', '\x7b', '\x7d'] then
          match afterFieldBracket opened c with
          | .ok opened => on 0 none opened
          | .error message => .error message
        else on 0 none opened

/-- What is wrong with the expression of a field, before the character `c` behind it. -/
def emptyFault? (expression : Text) (c : Char) : Option Text :=
  if expression.all (· ∈ [' ', '\t', '\n', '\x0c']) then
    if c ∈ ['!', ':', '='] then
      some ("f-string: expression required before \x27".toList ++ [c, '\x27'])
    else some "f-string: empty expression not allowed".toList
  else none

/-! ## Fields -/

/-- What follows the equals sign of a field, if it has one. -/
def afterEquals : Text → Text
  | '=' :: t => t.dropWhile Text.isAsciiBlank
  | t => t

/-- What follows the conversion of a field, if it has one. -/
def afterConversion : Text → Except Text Text
  | ['!'] => .error openField
  | '!' :: c :: t =>
    if c ∈ ['s', 'r', 'a'] then .ok t
    else .error ("f-string: invalid conversion character: ".toList ++
      "expected \x27s\x27, \x27r\x27, or \x27a\x27".toList)
  | t => .ok t

/-- Reads the rest of a string with fields, or of a format if `depth` is positive, and gives
    what follows. `fuel` bounds the number of characters, and `inner` tells what is wrong
    with an expression. -/
def afterFields (inner : Text → Option Text) (raw : Bool) :
    (fuel depth : Nat) → Text → Except Text Text
  | 0, _, t => .ok t
  | fuel + 1, depth, t => do
    let (plain, rest, again) ← plainPart raw (0 < depth) .plain t
    if let some message := if raw then none else textFault? 0 plain then throw message
    if again then afterFields inner raw fuel depth rest
    else
      match rest with
      | '\x7b' :: t =>
        if 2 ≤ depth then throw "f-string: expressions nested too deeply".toList
        let (expression, rest) ← fieldExpression 0 none [] t
        if let some c := rest.head? then
          if let some message := emptyFault? expression c <|> inner expression then
            throw message
        let rest ← afterConversion (afterEquals rest)
        let rest ← match rest with
          | [':'] => throw openField
          | ':' :: t => afterFields inner raw fuel (depth + 1) t
          | rest => pure rest
        match rest with
        | '\x7d' :: t => afterFields inner raw fuel depth t
        | _ => throw openField
      | rest => if 0 < depth ∧ rest.isEmpty then throw openField else return rest

/-- What is wrong with a string with fields. -/
def fieldsFault? (inner : Text → Option Text) (raw : Bool) (body : Text) : Option Text :=
  match afterFields inner raw (body.length + 1) 0 body with
  | .error message => some message
  | .ok _ => none

/-! ## Strings in a row -/

/-- What is wrong with strings in a row; `bytes` says what kind of strings the ones before
    are. -/
def stringsFault? (inner : Text → Option Text) : (bytes : Option Bool) → List Tree → Option Text
  | bytes, .leaf (.string letters body) :: ts =>
    let here := letters.contains 'b'
    let fields := letters.contains 'f'
    (if fields then none else stringFault? letters body) <|>
      (if bytes = some !here then some "cannot mix bytes and nonbytes literals".toList
      else none) <|>
      (if fields then fieldsFault? inner (letters.contains 'r') body else none) <|>
      stringsFault? inner (some here) ts
  | bytes, _ :: ts => stringsFault? inner bytes ts
  | _, [] => none

end Literal

end Cli

end DbmlRestore
