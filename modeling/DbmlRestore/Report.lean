import DbmlRestore.Text

/-!
# Library errors

Schema text is never wrong: a scanner that does not understand a line passes over
it. Errors come from metadata and settings only. An error says what is wrong and,
as far as it is known, where, and it may carry a code and a hint
(`LibraryError.format`).
-/

namespace DbmlRestore

/-- A place in a file. -/
structure Location where
  /-- The file. -/
  path : Option Text := none
  /-- The line. -/
  line : Option Int := none
  /-- The character on the line. -/
  column : Option Int := none
deriving Repr, DecidableEq

/-- The place as `path:line:column`, as far as it is known; nothing without a
    path. -/
def Location.describe (l : Location) : Option Text :=
  match l.path with
  | none => none
  | some [] => none
  | some path =>
    match l.line, l.column with
    | none, _ => some path
    | some line, none => some (path ++ ':' :: Text.ofInt line)
    | some line, some column => some (path ++ ':' :: Text.ofInt line ++ ':' :: Text.ofInt column)

/-- What an error is about. -/
inductive Area where
  /-- Anything. -/
  | general
  /-- A snapshot that cannot be read. -/
  | snapshot
  /-- A settings file that cannot be read. -/
  | config
deriving Repr, DecidableEq

/-- The code of the errors of an area, unless they have one of their own. -/
def Area.code : Area → Option Text
  | .general => none
  | .snapshot => some "SNAPSHOT_INVALID".toList
  | .config => some "CONFIG_INVALID".toList

/-- The name under which the errors of an area are shown. -/
def Area.typeName : Area → Text
  | .general => "KeepError".toList
  | .snapshot => "SnapshotError".toList
  | .config => "ConfigError".toList

/-- An error of the library. -/
structure LibraryError where
  /-- What it is about. -/
  area : Area
  /-- What is wrong. -/
  message : Text
  /-- Where it is wrong. -/
  location : Location := {}
  /-- A code of its own. -/
  ownCode : Option Text := none
  /-- How to mend it. -/
  hint : Option Text := none
deriving Repr, DecidableEq

/-- A text that is there and not empty. -/
def Text.present? : Option Text → Option Text
  | some (c :: t) => some (c :: t)
  | _ => none

namespace LibraryError

/-- The code of an error. -/
def code (e : LibraryError) : Option Text := e.ownCode <|> e.area.code

/-- The error in one line: the message, the place and the code in brackets, and
    the hint. -/
def format (e : LibraryError) : Text :=
  let details := [e.location.describe, Text.present? e.code].filterMap id
  let main :=
    if details.isEmpty then e.message
    else e.message ++ " (".toList ++ Text.joined "; ".toList details ++ ")".toList
  match Text.present? e.hint with
  | some hint => main ++ " Hint: ".toList ++ hint
  | none => main

end LibraryError

end DbmlRestore
