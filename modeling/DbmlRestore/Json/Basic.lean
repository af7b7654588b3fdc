import DbmlRestore.Number.Binary64
import DbmlRestore.Text.Wording

/-!
# JSON values

A JSON value as a snapshot or a settings file holds it. Objects keep their keys
in the order of the text, each key once: a key that is repeated keeps its place
and takes the later value (`Json.Members.insert`). Numbers without fraction and
exponent are integers of any size, the others binary64 numbers.

An escape may write half of a surrogate pair alone, so that strings and keys are
wordings and no texts.
-/

namespace DbmlRestore

/-- A JSON value. -/
inductive Json where
  /-- `null`. -/
  | null
  /-- `true` or `false`. -/
  | bool (b : Bool)
  /-- A number without fraction and exponent. -/
  | int (i : Int)
  /-- A number with a fraction or an exponent, an infinity, or not a number. -/
  | float (x : Binary64)
  /-- A string. -/
  | string (w : Wording)
  /-- A list of values. -/
  | array (items : List Json)
  /-- Values under keys. -/
  | object (members : List (Wording × Json))
deriving Repr

namespace Json

/-- A string that is a text. -/
abbrev ofText (t : Text) : Json := .string (.text t)

/-- The members of an object. -/
abbrev Members := List (Wording × Json)

/-- Sets the value of a key, which keeps its place if it is there already. -/
def Members.insert (key : Wording) (value : Json) : Members → Members
  | [] => [(key, value)]
  | (k, v) :: members =>
    if k = key then (k, value) :: members else (k, v) :: Members.insert key value members

/-- The value of a key. -/
def Members.find? (members : Members) (key : Text) : Option Json :=
  (List.find? (fun m => m.1 = .text key) members).map (·.2)

mutual

/-- The value with other strings and keys. -/
def mapStrings (f : Wording → Wording) : Json → Json
  | .null => .null
  | .bool b => .bool b
  | .int i => .int i
  | .float x => .float x
  | .string w => .string (f w)
  | .array vs => .array (mapItems f vs)
  | .object ms => .object (mapMembers f ms)
termination_by structural v => v

/-- The items with other strings and keys. -/
def mapItems (f : Wording → Wording) : List Json → List Json
  | [] => []
  | v :: vs => mapStrings f v :: mapItems f vs
termination_by structural vs => vs

/-- The member with another key, and other strings and keys in its value. -/
def mapMember (f : Wording → Wording) : Wording × Json → Wording × Json
  | (k, v) => (f k, mapStrings f v)
termination_by structural m => m

/-- The members with other strings and keys. -/
def mapMembers (f : Wording → Wording) : List (Wording × Json) → List (Wording × Json)
  | [] => []
  | m :: ms => mapMember f m :: mapMembers f ms
termination_by structural ms => ms

end

end Json

end DbmlRestore
