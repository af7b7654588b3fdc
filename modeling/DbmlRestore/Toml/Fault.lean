import DbmlRestore.Text.Position
import DbmlRestore.Text.Quoted

/-!
# Faults of TOML texts

What can be wrong with a TOML text, with the message for each fault. A message
ends with the place of the fault.
-/

namespace DbmlRestore

namespace Toml

/-- A key with dots between its parts, as the list of its parts. -/
abbrev Key := List Text

/-- What is wrong with a text that is not TOML. -/
inductive Fault where
  /-- A line starts with a character that starts nothing. -/
  | statement
  /-- A line goes on after its end. -/
  | lineEnd
  /-- A key is not followed by an equals sign. -/
  | equals
  /-- A value is missing. -/
  | value
  /-- A part of a key starts with a character that no key has. -/
  | keyPart
  /-- A table is declared again. -/
  | declaredTwice (key : Key)
  /-- A value would be replaced. -/
  | overwrite
  /-- The declaration of a table is not closed. -/
  | tableEnd
  /-- The declaration of an item of a list of tables is not closed. -/
  | arrayTableEnd
  /-- A value written in one piece would be extended. -/
  | frozen (key : Key)
  /-- A key with dots would extend a table that was declared. -/
  | redefined (key : Key)
  /-- A table in braces has a key twice. -/
  | duplicateKey (key : Text)
  /-- A list is not closed. -/
  | unclosedArray
  /-- A table in braces is not closed. -/
  | unclosedTable
  /-- A backslash is followed by a character that cannot be escaped. -/
  | backslash
  /-- An escape by number has too few digits. -/
  | hex
  /-- An escape by number is no character. -/
  | scalar
  /-- A string is not closed. -/
  | unterminated
  /-- A character may not stand in a string with escapes. -/
  | illegal (c : Char)
  /-- A character may not stand in a string without escapes, or in a comment. -/
  | invalid (c : Char)
  /-- A string without escapes is not closed. -/
  | expected (delimiter : Text)
  /-- A date is not in the calendar. -/
  | date
deriving Repr, DecidableEq

/-- The message for a fault, without its place. -/
def Fault.message : Fault → Text
  | .statement => "Invalid statement".toList
  | .lineEnd => "Expected newline or end of document after a statement".toList
  | .equals => "Expected '=' after a key in a key/value pair".toList
  | .value => "Invalid value".toList
  | .keyPart => "Invalid initial character for a key part".toList
  | .declaredTwice key => "Cannot declare ".toList ++ Text.quotedGroup key ++ " twice".toList
  | .overwrite => "Cannot overwrite a value".toList
  | .tableEnd => "Expected ']' at the end of a table declaration".toList
  | .arrayTableEnd => "Expected ']]' at the end of an array declaration".toList
  | .frozen key => "Cannot mutate immutable namespace ".toList ++ Text.quotedGroup key
  | .redefined key => "Cannot redefine namespace ".toList ++ Text.quotedGroup key
  | .duplicateKey key => "Duplicate inline table key ".toList ++ Text.quoted key
  | .unclosedArray => "Unclosed array".toList
  | .unclosedTable => "Unclosed inline table".toList
  | .backslash => "Unescaped '\\' in a string".toList
  | .hex => "Invalid hex value".toList
  | .scalar => "Escaped character is not a Unicode scalar value".toList
  | .unterminated => "Unterminated string".toList
  | .illegal c => "Illegal character ".toList ++ Text.quoted [c]
  | .invalid c => "Found invalid character ".toList ++ Text.quoted [c]
  | .expected delimiter => "Expected ".toList ++ Text.quoted delimiter
  | .date => "Invalid date or datetime".toList

/-- The place of a fault, none being the end of the text. -/
def placeText : Option Position → Text
  | none => "end of document".toList
  | some p => "line ".toList ++ Text.ofNat p.line ++ ", column ".toList ++ Text.ofNat p.column

/-- The message for a fault, with its place. -/
def Fault.messageAt (f : Fault) (place : Option Position) : Text :=
  f.message ++ " (at ".toList ++ placeText place ++ ")".toList

/-- Why reading stopped: a fault, with the rest of the text where it was found, or
    an integer with too many digits. -/
inductive Stop where
  /-- The text is not TOML. -/
  | fault (fault : Fault) (rest : Text)
  /-- An integer has too many digits. -/
  | digits (count : Nat)
deriving Repr, DecidableEq

/-- Reads a part of a document from the front of a text. -/
abbrev Reader (α : Type) := Text → Except Stop (α × Text)

end Toml

end DbmlRestore
