import DbmlRestore.Text.Wording

/-!
# Faults of encoded texts

Why bytes are not an encoded text, and why a text cannot be encoded. Both faults
tell the codec, the place and the reason; a place is one byte or character, or
several in a row.
-/

namespace DbmlRestore

namespace Charset

/-- The content of a file. -/
abbrev Bytes := List UInt8

/-- Why bytes are not an encoded text. -/
inductive DecodeFault where
  /-- Some bytes are wrong: `count` of them from the place `start` on, the first of
      them being `first`. -/
  | bytes (codec : Text) (start count : Nat) (first : UInt8) (reason : Text)
  /-- There is no mark that tells the order of the bytes. -/
  | noByteOrderMark
deriving Repr, DecidableEq

/-- Where a fault is: one `thing`, which is `shown`, or several in a row. -/
def placeText (thing shown : Text) (start count : Nat) : Text :=
  if count = 1 then thing ++ ' ' :: shown ++ " in position ".toList ++ Text.ofNat start
  else thing ++ "s in position ".toList ++ Text.ofNat start ++ '-' ::
    Text.ofNat (start + count - 1)

/-- The message for a fault of decoding. -/
def DecodeFault.message : DecodeFault → Text
  | .bytes codec start count first reason =>
    Text.quoted codec ++ " codec can't decode ".toList ++
      placeText "byte".toList ("0x".toList ++ Text.hex 2 first.toNat) start count ++
      ": ".toList ++ reason
  | .noByteOrderMark => "UTF-16 stream does not start with BOM".toList

/-- Why a wording cannot be encoded: `count` characters or halves of surrogate pairs
    from the place `start` on are not in the charset, `first` being the number of the
    first of them. -/
structure EncodeFault where
  /-- The codec. -/
  codec : Text
  /-- The place of the first character. -/
  start : Nat
  /-- The number of characters. -/
  count : Nat
  /-- The number of the first character. -/
  first : Nat
  /-- What is wrong. -/
  reason : Text
deriving Repr, DecidableEq

/-- The fault of the first numbers in a row that a codec refuses. -/
def EncodeFault.ofCodes (codec reason : Text) (refuses : Nat → Bool) (codes : List Nat) :
    EncodeFault :=
  let rest := codes.dropWhile (!refuses ·)
  { codec := codec
    start := codes.length - rest.length
    count := (rest.takeWhile refuses).length
    first := rest.headD 0
    reason := reason }

/-- The reason why half of a surrogate pair is refused. -/
def halfReason : Text := "surrogates not allowed".toList

/-- The message for a fault of encoding. -/
def EncodeFault.message (f : EncodeFault) : Text :=
  let shown := '\x27' :: Text.escapeNumber f.first ++ ['\x27']
  Text.quoted f.codec ++ " codec can't encode ".toList ++
    placeText "character".toList shown f.start f.count ++ ": ".toList ++ f.reason

end Charset

end DbmlRestore
