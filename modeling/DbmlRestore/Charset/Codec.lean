import DbmlRestore.Charset.Fault

/-!
# Codecs

A *codec* goes between the bytes of files and what they write, and back. It is asked for
by its name (`Codec.Registry`). The charsets that are known here (`Charset`) are a few of
those that a system may have. What else a system has is left open: a codec may be any pair
of functions. What it decodes need not be a text, and it may refuse to encode what it has
decoded. Its faults are shown by the name of their type and a message.
-/

namespace DbmlRestore

namespace Codec

open Charset (Bytes DecodeFault EncodeFault)

/-- Why a codec cannot do its work. -/
inductive Fault where
  /-- The bytes are not an encoded text. -/
  | decode (f : DecodeFault)
  /-- The wording cannot be encoded. -/
  | encode (f : EncodeFault)
  /-- Anything else. -/
  | other (typeName message : Text)
deriving Repr, DecidableEq

/-- The name of the type of a fault. -/
def Fault.typeName : Fault → Text
  | .decode (.bytes ..) => "UnicodeDecodeError".toList
  | .decode .noByteOrderMark => "UnicodeError".toList
  | .encode _ => "UnicodeEncodeError".toList
  | .other name _ => name

/-- The message for a fault. -/
def Fault.message : Fault → Text
  | .decode f => f.message
  | .encode f => f.message
  | .other _ message => message

/-- Whether a fault tells which bytes are wrong. -/
def Fault.tellsBytes : Fault → Bool
  | .decode (.bytes ..) => true
  | _ => false

/-- Why there is no codec of a name. -/
inductive LookupFault where
  /-- The name is broken. -/
  | broken (fault : EncodeFault)
  /-- There is a null character in the name. -/
  | nullCharacter
  /-- The name is that of an encoding that is no charset. -/
  | notText (name : Text)
  /-- The name is not known. -/
  | unknown (name : Text)
  /-- Anything else. -/
  | other (typeName message : Text)
deriving Repr, DecidableEq

/-- The name of the type of a fault. -/
def LookupFault.typeName : LookupFault → Text
  | .broken _ => "UnicodeEncodeError".toList
  | .nullCharacter => "ValueError".toList
  | .notText _ => "LookupError".toList
  | .unknown _ => "LookupError".toList
  | .other name _ => name

/-- The message for a fault of a name. -/
def LookupFault.message : LookupFault → Text
  | .broken fault => fault.message
  | .nullCharacter => "embedded null character".toList
  | .notText name =>
    '\x27' :: name.take 400 ++
      "' is not a text encoding; use codecs.open() to handle arbitrary codecs".toList
  | .unknown name => "unknown encoding: ".toList ++ name
  | .other _ message => message

end Codec

/-- What goes between bytes and wordings. -/
structure Codec where
  /-- What bytes write. -/
  decode : Charset.Bytes → Except Codec.Fault Wording
  /-- The bytes that write a wording. -/
  encode : Wording → Except Codec.Fault Charset.Bytes

/-- The codec of each name, or why there is none. -/
abbrev Codec.Registry := Wording → Except Codec.LookupFault Codec

end DbmlRestore
