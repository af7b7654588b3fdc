import DbmlRestore.Charset.Codec
import DbmlRestore.Charset.SingleByte
import DbmlRestore.Charset.Utf16
import DbmlRestore.Charset.Utf8

/-!
# Charsets

The charsets in which schema files and snapshots are stored most often. A charset is
asked for by name (`Charset.ofName`): the case of the letters does not matter, nor does
what stands between letters and digits.

There are many more charsets, of one byte and of several. They are left out: their names
count as unknown where these charsets are all that there is (`Charset.registry`). What is
said of every system is said of any other codecs, too (`Codec`).
-/

namespace DbmlRestore

/-- A charset. -/
inductive Charset where
  /-- UTF-8. -/
  | utf8
  /-- UTF-8 with a mark at the start. -/
  | utf8Marked
  /-- ASCII. -/
  | ascii
  /-- Latin-1. -/
  | latin1
  /-- Windows-1252. -/
  | windows1252
  /-- UTF-16 with a mark at the start. -/
  | utf16
  /-- UTF-16, the less significant byte first. -/
  | utf16Little
  /-- UTF-16, the more significant byte first. -/
  | utf16Big
deriving Repr, DecidableEq

namespace Charset

/-- The text that bytes encode. -/
def decode : Charset → Bytes → Except DecodeFault Text
  | .utf8, bytes => Utf8.decode bytes
  | .utf8Marked, bytes => Utf8.decodeMarked bytes
  | .ascii, bytes => SingleByte.decode SingleByte.ascii bytes
  | .latin1, bytes => SingleByte.decode SingleByte.latin1 bytes
  | .windows1252, bytes => SingleByte.decode SingleByte.windows1252 bytes
  | .utf16, bytes => Utf16.decodeMarked bytes
  | .utf16Little, bytes => Utf16.decode .little bytes
  | .utf16Big, bytes => Utf16.decode .big bytes

/-- The bytes of a text. -/
def encode : Charset → Text → Except EncodeFault Bytes
  | .utf8, t => .ok (Utf8.encode t)
  | .utf8Marked, t => .ok (Utf8.mark ++ Utf8.encode t)
  | .ascii, t => SingleByte.encode SingleByte.ascii t
  | .latin1, t => SingleByte.encode SingleByte.latin1 t
  | .windows1252, t => SingleByte.encode SingleByte.windows1252 t
  | .utf16, t => .ok (Utf16.encodeMarked t)
  | .utf16Little, t => .ok (Utf16.encode .little t)
  | .utf16Big, t => .ok (Utf16.encode .big t)

/-- Why a broken wording cannot be encoded. -/
def brokenFault : Charset → List Nat → EncodeFault
  | .utf8, codes => Utf8.brokenFault codes
  | .utf8Marked, codes => Utf8.brokenFault codes
  | .ascii, codes => SingleByte.brokenFault SingleByte.ascii codes
  | .latin1, codes => SingleByte.brokenFault SingleByte.latin1 codes
  | .windows1252, codes => SingleByte.brokenFault SingleByte.windows1252 codes
  | .utf16, codes => Utf16.brokenFault "utf-16".toList codes
  | .utf16Little, codes => Utf16.brokenFault Utf16.ByteOrder.little.codec codes
  | .utf16Big, codes => Utf16.brokenFault Utf16.ByteOrder.big.codec codes

/-- The bytes of a wording. -/
def encodeWording (c : Charset) : Wording → Except EncodeFault Bytes
  | .text t => c.encode t
  | .broken codes => .error (c.brokenFault codes)

/-! ## Names -/

/-- The names of a charset, in lower case, with an underscore between their parts. -/
structure Names where
  /-- Its own name. -/
  own : String
  /-- Its other names. A dot may stand for an underscore in them. -/
  others : List String
deriving Repr, DecidableEq

/-- The names of the charsets. -/
def names : List (Charset × Names) :=
  [(.utf8, ⟨"utf_8", ["utf8", "u8", "utf", "utf8_ucs2", "utf8_ucs4", "cp65001"]⟩),
    (.utf8Marked, ⟨"utf_8_sig", []⟩),
    (.ascii, ⟨"ascii", ["us_ascii", "646", "ansi_x3.4_1968", "ansi_x3_4_1968",
      "ansi_x3.4_1986", "cp367", "csascii", "ibm367", "iso646_us", "iso_646.irv_1991",
      "iso_ir_6", "us"]⟩),
    (.latin1, ⟨"latin_1", ["latin1", "latin", "l1", "8859", "iso8859", "iso8859_1",
      "iso_8859_1", "iso_8859_1_1987", "iso_ir_100", "cp819", "csisolatin1", "ibm819"]⟩),
    (.windows1252, ⟨"cp1252", ["1252", "windows_1252"]⟩),
    (.utf16, ⟨"utf_16", ["utf16", "u16"]⟩),
    (.utf16Little, ⟨"utf_16_le", ["utf_16le", "unicodelittleunmarked"]⟩),
    (.utf16Big, ⟨"utf_16_be", ["utf_16be", "unicodebigunmarked"]⟩)]

/-- The names of encodings of bytes as bytes, or of texts as texts, which are no
    charsets. -/
def otherEncodings : List Names :=
  [⟨"base64_codec", ["base64", "base_64"]⟩, ⟨"bz2_codec", ["bz2"]⟩, ⟨"hex_codec", ["hex"]⟩,
    ⟨"quopri_codec", ["quopri", "quoted_printable", "quotedprintable"]⟩, ⟨"rot_13", ["rot13"]⟩,
    ⟨"uu_codec", ["uu"]⟩, ⟨"zlib_codec", ["zip", "zlib"]⟩]

/-- Whether a character is part of a name. -/
def isNameChar (c : Char) : Bool := c.isAlphanum || c == '.'

/-- A name in lower case, with one underscore for what stands between its parts;
    `gap` tells that an underscore is due before the next part. -/
def plainNameFrom : (gap : Bool) → Text → Text
  | _, [] => []
  | gap, c :: t =>
    if isNameChar c then (if gap then ['_', c.toLower] else [c.toLower]) ++ plainNameFrom false t
    else plainNameFrom true t

/-- A name in lower case, with one underscore between its parts. -/
def plainName (name : Text) : Text :=
  plainNameFrom false (name.dropWhile (!isNameChar ·))

/-- Whether a plain name is one of the given names. -/
def Names.holds (ns : Names) (plain : Text) : Bool :=
  let undotted := plain.map fun c => if c = '.' then '_' else c
  ns.own.toList = plain || ns.others.any fun n => n.toList = plain || n.toList = undotted

/-- The charset of a name that is a text. -/
def ofText (name : Text) : Except Codec.LookupFault Charset :=
  let plain := plainName name
  if name.contains '\x00' then .error .nullCharacter
  else
    match names.find? fun (_, ns) => ns.holds plain with
    | some (c, _) => .ok c
    | none =>
      if otherEncodings.any (·.holds plain) then .error (.notText name)
      else .error (.unknown name)

/-- The charset of a name. -/
def ofName : Wording → Except Codec.LookupFault Charset
  | .text name => ofText name
  | .broken codes => .error (.broken (Utf8.brokenFault codes))

/-! ## Codecs -/

/-- The codec of a charset. -/
def codec (c : Charset) : Codec where
  decode bytes := ((c.decode bytes).map .text).mapError .decode
  encode w := (c.encodeWording w).mapError .encode

/-- The codecs of the charsets. -/
def registry : Codec.Registry := fun name => (ofName name).map codec

end Charset

end DbmlRestore
