import DbmlRestore.Charset.Fault

/-!
# UTF-8

A character takes one to four bytes. Decoding works byte by byte: after the first
byte of a longer character, the state tells how many bytes are owed and in which
range the next one must be (`Utf8.Pending`), so that a character is refused at the
first byte that makes it impossible. Surrogates, numbers beyond the last character
and characters written longer than needed are impossible.
-/

namespace DbmlRestore

namespace Charset

namespace Utf8

/-- A character of which some bytes have been read. -/
structure Pending where
  /-- The first byte. -/
  first : UInt8
  /-- The place of the first byte. -/
  start : Nat
  /-- The number of bytes read. -/
  seen : Nat
  /-- The number of bytes owed. -/
  owed : Nat
  /-- The least next byte. -/
  low : Nat
  /-- The greatest next byte. -/
  high : Nat
  /-- The bits read. -/
  bits : Nat
deriving Repr, DecidableEq

/-- The state after the first byte of a character of several bytes. -/
def Pending.ofFirst? (first : UInt8) (start : Nat) : Option Pending :=
  let n := first.toNat
  if n < 0xC2 then none
  else if n < 0xE0 then some ⟨first, start, 1, 1, 0x80, 0xBF, n - 0xC0⟩
  else if n < 0xF0 then
    some ⟨first, start, 1, 2, if n = 0xE0 then 0xA0 else 0x80, if n = 0xED then 0x9F else 0xBF,
      n - 0xE0⟩
  else if n < 0xF5 then
    some ⟨first, start, 1, 3, if n = 0xF0 then 0x90 else 0x80, if n = 0xF4 then 0x8F else 0xBF,
      n - 0xF0⟩
  else none

/-- The state after one more byte. -/
def Pending.next (p : Pending) (b : UInt8) : Pending :=
  { p with
    seen := p.seen + 1
    owed := p.owed - 1
    low := 0x80
    high := 0xBF
    bits := p.bits * 64 + (b.toNat - 0x80) }

/-- The name of the codec in messages. -/
def codec : Text := "utf-8".toList

/-- The fault of a character that is broken off or goes on wrong. -/
def Pending.fault (p : Pending) (reason : String) : DecodeFault :=
  .bytes codec p.start p.seen p.first reason.toList

/-- The text of the bytes from the place `pos` on. -/
def decodeFrom : Option Pending → (pos : Nat) → Bytes → Except DecodeFault Text
  | none, _, [] => .ok []
  | some p, _, [] => .error (p.fault "unexpected end of data")
  | none, pos, b :: t =>
    if b.toNat < 0x80 then (decodeFrom none (pos + 1) t).map (Char.ofNat b.toNat :: ·)
    else
      match Pending.ofFirst? b pos with
      | none => .error (.bytes codec pos 1 b "invalid start byte".toList)
      | some p => decodeFrom (some p) (pos + 1) t
  | some p, pos, b :: t =>
    if p.low ≤ b.toNat ∧ b.toNat ≤ p.high then
      let p := p.next b
      if p.owed = 0 then (decodeFrom none (pos + 1) t).map (Char.ofNat p.bits :: ·)
      else decodeFrom (some p) (pos + 1) t
    else .error (p.fault "invalid continuation byte")

/-- The text that bytes encode. -/
def decode (bytes : Bytes) : Except DecodeFault Text :=
  decodeFrom none 0 bytes

/-- The bytes of a character. -/
def encodeChar (c : Char) : Bytes :=
  let n := c.toNat
  if n < 0x80 then [n.toUInt8]
  else if n < 0x800 then [(0xC0 + n / 64).toUInt8, tail n]
  else if n < 0x10000 then [(0xE0 + n / 4096).toUInt8, tail (n / 64), tail n]
  else [(0xF0 + n / 262144).toUInt8, tail (n / 4096), tail (n / 64), tail n]
where
  /-- A byte with the last six bits of a number. -/
  tail (n : Nat) : UInt8 := (0x80 + n % 64).toUInt8

/-- The bytes of a text. -/
def encode (t : Text) : Bytes :=
  t.flatMap encodeChar

/-- The fault of a broken wording: all halves in a row are told. -/
def brokenFault (codes : List Nat) : EncodeFault :=
  .ofCodes codec halfReason Wording.isHalf codes

/-- The mark that may stand before a text. -/
def mark : Bytes := [0xEF, 0xBB, 0xBF]

/-- The text of bytes that may start with the mark, which is dropped; a part of the
    mark alone is no text yet. -/
def decodeMarked (bytes : Bytes) : Except DecodeFault Text :=
  if bytes.length < 3 && bytes.isPrefixOf mark then .ok []
  else if mark.isPrefixOf bytes then decode (bytes.drop 3)
  else decode bytes

end Utf8

end Charset

end DbmlRestore
