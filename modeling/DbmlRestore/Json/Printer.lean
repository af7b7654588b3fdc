import DbmlRestore.Json.Basic
import DbmlRestore.Text.Quoted

/-!
# Writing JSON

A value is written with ASCII characters only: every other one is escaped by
number, those beyond the first plane as a surrogate pair. A value stands on one
line, or with each item and member on a line of its own (`Json.Indent`).
-/

namespace DbmlRestore

namespace Json

/-- How a value is laid out: on one line, or on many with a number of spaces for
    each level. -/
inductive Indent where
  /-- On one line. -/
  | oneLine
  /-- A line for each item and member, indented by the number of spaces for each
      level. -/
  | spaces (n : Nat)
deriving Repr, DecidableEq

/-- The break before an item at a level: the start of a line, or nothing. -/
def Indent.lineBreak : Indent → (level : Nat) → Text
  | .oneLine, _ => []
  | .spaces n, level => '\n' :: List.replicate (n * level) ' '

/-- What stands between two items at a level. -/
def Indent.separator : Indent → (level : Nat) → Text
  | .oneLine, _ => [',', ' ']
  | .spaces n, level => ',' :: Indent.lineBreak (.spaces n) level

/-! ## Strings -/

/-- The hexadecimal digit for a number below sixteen. -/
def hexChar (n : Nat) : Char :=
  if n < 10 then Char.ofNat ('0'.toNat + n) else Char.ofNat ('a'.toNat + (n - 10))

/-- An escape by number, with four digits. -/
def escapeUnit (n : Nat) : Text :=
  ['\\', 'u', hexChar (n / 4096 % 16), hexChar (n / 256 % 16), hexChar (n / 16 % 16),
    hexChar (n % 16)]

/-- A character inside of a string. -/
def escapeChar (c : Char) : Text :=
  if c = '"' then ['\\', '"']
  else if c = '\\' then ['\\', '\\']
  else if c = '\n' then ['\\', 'n']
  else if c = '\r' then ['\\', 'r']
  else if c = '\t' then ['\\', 't']
  else if c = '\x08' then ['\\', 'b']
  else if c = '\x0c' then ['\\', 'f']
  else if 32 ≤ c.toNat ∧ c.toNat < 127 then [c]
  else if c.toNat < 0x10000 then escapeUnit c.toNat
  else
    let n := c.toNat - 0x10000
    escapeUnit (0xD800 + n / 0x400) ++ escapeUnit (0xDC00 + n % 0x400)

/-- A character, or half of a surrogate pair, inside of a string. -/
def escapeCode (n : Nat) : Text :=
  if Wording.isHalf n then escapeUnit n else escapeChar (Char.ofNat n)

/-- A string with its quotes. -/
def quote : Wording → Text
  | .text t => '"' :: t.flatMap escapeChar ++ ['"']
  | .broken codes => '"' :: codes.flatMap escapeCode ++ ['"']

/-! ## Values -/

/-- A floating-point number. -/
def ofFloat : Binary64 → Text
  | .nan => "NaN".toList
  | .infinity negative => (if negative then ['-'] else []) ++ "Infinity".toList
  | x => x.text

mutual

/-- A value at a level. -/
def renderAt (i : Indent) (level : Nat) : Json → Text
  | .null => "null".toList
  | .bool true => "true".toList
  | .bool false => "false".toList
  | .int n => Text.ofInt n
  | .float x => ofFloat x
  | .string w => quote w
  | .array [] => ['[', ']']
  | .array (v :: vs) =>
    '[' :: i.lineBreak (level + 1) ++ renderAt i (level + 1) v ++ renderItems i (level + 1) vs ++
      i.lineBreak level ++ [']']
  | .object [] => ['\x7b', '\x7d']
  | .object (m :: ms) =>
    '\x7b' :: i.lineBreak (level + 1) ++ renderMember i (level + 1) m ++
      renderMembers i (level + 1) ms ++ i.lineBreak level ++ ['\x7d']
termination_by structural v => v

/-- The items after the first one. -/
def renderItems (i : Indent) (level : Nat) : List Json → Text
  | [] => []
  | v :: vs => i.separator level ++ renderAt i level v ++ renderItems i level vs
termination_by structural vs => vs

/-- A key with its value. -/
def renderMember (i : Indent) (level : Nat) : Wording × Json → Text
  | (k, v) => quote k ++ ':' :: ' ' :: renderAt i level v
termination_by structural m => m

/-- The members after the first one. -/
def renderMembers (i : Indent) (level : Nat) : List (Wording × Json) → Text
  | [] => []
  | m :: ms => i.separator level ++ renderMember i level m ++ renderMembers i level ms
termination_by structural ms => ms

end

/-- A value as a text. -/
def render (i : Indent) (v : Json) : Text :=
  renderAt i 0 v

end Json

end DbmlRestore
