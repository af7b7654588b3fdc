import DbmlRestore.Charset.Fault

/-!
# UTF-16

A character takes one or two units of two bytes each. The order of the bytes is
told by the charset or by a mark at the start of the text.
-/

namespace DbmlRestore

namespace Charset

namespace Utf16

/-- The order of the two bytes of a unit. -/
inductive ByteOrder where
  /-- The less significant byte is first. -/
  | little
  /-- The more significant byte is first. -/
  | big
deriving Repr, DecidableEq

/-- The name of the codec in messages. -/
def ByteOrder.codec : ByteOrder → Text
  | .little => "utf-16-le".toList
  | .big => "utf-16-be".toList

/-- The unit of two bytes. -/
def ByteOrder.unit (o : ByteOrder) (a b : UInt8) : Nat :=
  match o with
  | .little => b.toNat * 256 + a.toNat
  | .big => a.toNat * 256 + b.toNat

/-- The two bytes of a unit. -/
def ByteOrder.bytes (o : ByteOrder) (unit : Nat) : Bytes :=
  let low := (unit % 256).toUInt8
  let high := (unit / 256).toUInt8
  match o with
  | .little => [low, high]
  | .big => [high, low]

/-- The first half of a surrogate pair that has been read. -/
structure Half where
  /-- The first byte. -/
  first : UInt8
  /-- The place of the first byte. -/
  start : Nat
  /-- The unit. -/
  unit : Nat
deriving Repr, DecidableEq

/-- The text of the bytes from the place `pos` on. -/
def decodeFrom (o : ByteOrder) : Option Half → (pos : Nat) → Bytes → Except DecodeFault Text
  | none, _, [] => .ok []
  | none, pos, [a] => .error (.bytes o.codec pos 1 a "truncated data".toList)
  | some h, _, [] => .error (.bytes o.codec h.start 2 h.first "unexpected end of data".toList)
  | some h, _, [_] => .error (.bytes o.codec h.start 3 h.first "unexpected end of data".toList)
  | none, pos, a :: b :: t =>
    let unit := o.unit a b
    if 0xD800 ≤ unit ∧ unit < 0xDC00 then decodeFrom o (some ⟨a, pos, unit⟩) (pos + 2) t
    else if 0xDC00 ≤ unit ∧ unit < 0xE000 then
      .error (.bytes o.codec pos 2 a "illegal encoding".toList)
    else (decodeFrom o none (pos + 2) t).map (Char.ofNat unit :: ·)
  | some h, pos, a :: b :: t =>
    let unit := o.unit a b
    if 0xDC00 ≤ unit ∧ unit < 0xE000 then
      let n := 0x10000 + (h.unit - 0xD800) * 0x400 + (unit - 0xDC00)
      (decodeFrom o none (pos + 2) t).map (Char.ofNat n :: ·)
    else .error (.bytes o.codec h.start 2 h.first "illegal UTF-16 surrogate".toList)

/-- The text that bytes encode in a known order. -/
def decode (o : ByteOrder) (bytes : Bytes) : Except DecodeFault Text :=
  decodeFrom o none 0 bytes

/-- The text of bytes that start with a mark for their order. Places count the mark.
    Bytes without a mark are refused, after they were found to be a text. -/
def decodeMarked : Bytes → Except DecodeFault Text
  | 0xFF :: 0xFE :: t => decodeFrom .little none 2 t
  | 0xFE :: 0xFF :: t => decodeFrom .big none 2 t
  | bytes =>
    match decode .little bytes with
    | .error fault => .error fault
    | .ok [] => .ok []
    | .ok _ => .error .noByteOrderMark

/-- The bytes of a character. -/
def encodeChar (o : ByteOrder) (c : Char) : Bytes :=
  let n := c.toNat
  if n < 0x10000 then o.bytes n
  else
    let m := n - 0x10000
    o.bytes (0xD800 + m / 0x400) ++ o.bytes (0xDC00 + m % 0x400)

/-- The bytes of a text in a known order. -/
def encode (o : ByteOrder) (t : Text) : Bytes :=
  t.flatMap (encodeChar o)

/-- The bytes of a text after the mark for their order. -/
def encodeMarked (t : Text) : Bytes :=
  0xFF :: 0xFE :: encode .little t

/-- The fault of a broken wording: one half is told. -/
def brokenFault (codec : Text) (codes : List Nat) : EncodeFault :=
  { EncodeFault.ofCodes codec halfReason Wording.isHalf codes with count := 1 }

end Utf16

end Charset

end DbmlRestore
