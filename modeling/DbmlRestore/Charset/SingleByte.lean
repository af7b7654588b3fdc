import DbmlRestore.Charset.Fault

/-!
# Charsets of single bytes

In these charsets each character takes one byte. A charset is a table of
characters (`SingleByte.Page`): the bytes below a bound stand for the character of
the same number, and some more bytes for other characters.
-/

namespace DbmlRestore

namespace Charset

namespace SingleByte

/-- A charset in which each character takes one byte. -/
structure Page where
  /-- The name of the codec in messages. -/
  codec : Text
  /-- The reason in messages. -/
  reason : Text
  /-- The character of a byte. -/
  char? : UInt8 → Option Char
  /-- The byte of a character. -/
  byte? : Char → Option UInt8

/-- The charset whose bytes below `bound` are the characters of the same number. -/
def Page.below (codec : String) (bound : Nat) : Page where
  codec := codec.toList
  reason := "ordinal not in range(".toList ++ Text.ofNat bound ++ ")".toList
  char? b := if b.toNat < bound then some (Char.ofNat b.toNat) else none
  byte? c := if c.toNat < bound then some c.toNat.toUInt8 else none

/-- ASCII. -/
def ascii : Page := .below "ascii" 128

/-- Latin-1. -/
def latin1 : Page := .below "latin-1" 256

/-- The characters of the bytes 128 to 159 in Windows-1252; zero where there is
    none. -/
def windowsExtras : List Nat :=
  [0x20AC, 0, 0x201A, 0x0192, 0x201E, 0x2026, 0x2020, 0x2021, 0x02C6, 0x2030, 0x0160, 0x2039,
    0x0152, 0, 0x017D, 0, 0, 0x2018, 0x2019, 0x201C, 0x201D, 0x2022, 0x2013, 0x2014, 0x02DC,
    0x2122, 0x0161, 0x203A, 0x0153, 0, 0x017E, 0x0178]

/-- Windows-1252: Latin-1 with other characters from 128 to 159. -/
def windows1252 : Page where
  codec := "charmap".toList
  reason := "character maps to <undefined>".toList
  char? b :=
    if 0x80 ≤ b.toNat ∧ b.toNat < 0xA0 then
      match windowsExtras[b.toNat - 0x80]? with
      | some (n + 1) => some (Char.ofNat (n + 1))
      | _ => none
    else some (Char.ofNat b.toNat)
  byte? c :=
    if c.toNat < 0x80 ∨ 0xA0 ≤ c.toNat ∧ c.toNat < 0x100 then some c.toNat.toUInt8
    else (windowsExtras.idxOf? c.toNat).map fun i => (0x80 + i).toUInt8

/-- The text of the bytes from the place `pos` on. -/
def decodeFrom (p : Page) : (pos : Nat) → Bytes → Except DecodeFault Text
  | _, [] => .ok []
  | pos, b :: t =>
    match p.char? b with
    | some c => (decodeFrom p (pos + 1) t).map (c :: ·)
    | none => .error (.bytes p.codec pos 1 b p.reason)

/-- The text that bytes encode. -/
def decode (p : Page) (bytes : Bytes) : Except DecodeFault Text :=
  decodeFrom p 0 bytes

/-- The bytes of the text from the place `pos` on. A fault tells all characters in a
    row that are not in the charset. -/
def encodeFrom (p : Page) : (pos : Nat) → Text → Except EncodeFault Bytes
  | _, [] => .ok []
  | pos, c :: t =>
    match p.byte? c with
    | some b => (encodeFrom p (pos + 1) t).map (b :: ·)
    | none =>
      let more := (t.takeWhile fun d => (p.byte? d).isNone).length
      .error ⟨p.codec, pos, more + 1, c.toNat, p.reason⟩

/-- The bytes of a text. -/
def encode (p : Page) (t : Text) : Except EncodeFault Bytes :=
  encodeFrom p 0 t

/-- The fault of a broken wording. -/
def brokenFault (p : Page) (codes : List Nat) : EncodeFault :=
  .ofCodes p.codec p.reason
    (fun n => Wording.isHalf n || (p.byte? (Char.ofNat n)).isNone) codes

end SingleByte

end Charset

end DbmlRestore
