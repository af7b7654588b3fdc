import DbmlRestore.Cli.Literal.Pattern

/-!
# Strings

What stands between the quotes of a string may have escapes, which start with a backslash.
An escape that gives a character by number must have all its digits. In a string of bytes
(with a `b` before it) there are only characters of ASCII and only numbers of two digits;
in a raw string (with an `r`) there are no escapes.
-/

namespace DbmlRestore

namespace Cli

namespace Literal

/-- Whether a character is a digit in base sixteen. -/
def isHexDigit (c : Char) : Bool :=
  c.isDigit || ('a' ≤ c && c ≤ 'f') || ('A' ≤ c && c ≤ 'F')

/-- The number that digits in base sixteen write. -/
def hexValue (t : Text) : Nat :=
  t.foldl (fun n c => n * 16 + (if c.isDigit then c.toNat - 48 else c.toLower.toNat - 87)) 0

/-- The message for an escape between two positions. -/
def escapeFault (first last : Nat) (reason : String) : Text :=
  "(unicode error) \x27unicodeescape\x27 codec can\x27t decode bytes in position ".toList ++
    Text.ofNat first ++ '-' :: Text.ofNat last ++ ": ".toList ++ reason.toList

/-- What is wrong with an escape of `count` digits; `t` follows its letter. -/
def numberFault? (position count : Nat) (reason : String) (t : Text) : Option Text :=
  let digits := (t.take count).takeWhile isHexDigit
  if digits.length < count then
    some (escapeFault position (position + 1 + digits.length) reason)
  else if 0x10FFFF < hexValue digits then
    some (escapeFault position (position + 1 + count) "illegal Unicode character")
  else none

/-- The columns that a character takes in positions: one that is not in ASCII is counted
    as the escape for its number. -/
def columns (c : Char) : Nat := if c.toNat < 0x80 then 1 else 10

/-- What is wrong with an escape by name; `t` follows its letter. All names are taken to
    be known. -/
def nameFault? (position : Nat) (t : Text) : Option Text :=
  let malformed (last : Nat) := some (escapeFault position last "malformed \\N character escape")
  match t with
  | '\x7b' :: inner =>
    let name := inner.takeWhile (· != '\x7d')
    if name.length = inner.length then
      malformed (name.foldl (fun n c => n + columns c) (position + 2))
    else if name.isEmpty then malformed (position + 2)
    else none
  | _ => malformed (position + 1)

/-- What is wrong with the escapes of a string, from a position on. -/
def textFault? (position : Nat) : Text → Option Text
  | [] => none
  | ['\\'] => none
  | '\\' :: c :: t =>
    let found :=
      if c = 'x' then numberFault? position 2 "truncated \\xXX escape" t
      else if c = 'u' then numberFault? position 4 "truncated \\uXXXX escape" t
      else if c = 'U' then numberFault? position 8 "truncated \\UXXXXXXXX escape" t
      else if c = 'N' then nameFault? position t
      else none
    found <|> textFault? (position + (if c.toNat < 0x80 then 2 else 16)) t
  | c :: t => textFault? (position + columns c) t

/-- What is wrong with the escapes of a string of bytes, from a position on. -/
def bytesFault? (position : Nat) : Text → Option Text
  | [] => none
  | ['\\'] => none
  | '\\' :: c :: t =>
    if c = 'x' ∧ ((t.take 2).takeWhile isHexDigit).length < 2 then
      some ("(value error) invalid \\x escape at position ".toList ++ Text.ofNat position)
    else bytesFault? (position + 2) t
  | _ :: t => bytesFault? (position + 1) t

/-- What is wrong with a string that has no fields. -/
def stringFault? (letters body : Text) : Option Text :=
  if letters.contains 'b' then
    if body.any (0x80 ≤ ·.toNat) then
      some "bytes can only contain ASCII literal characters".toList
    else if letters.contains 'r' then none
    else bytesFault? 0 body
  else if letters.contains 'r' then none
  else textFault? 0 body

end Literal

end Cli

end DbmlRestore
