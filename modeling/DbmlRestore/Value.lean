import DbmlRestore.Json.Basic
import DbmlRestore.Moment

/-!
# Values of settings

What a settings file may hold under a key. A setting that must be a text may be
given as any value and is then shown as one (`Value.wording`); inside of a list or a
table a value is shown so that its type can be seen (`Value.shown`). A value that
is nothing, zero, false or empty counts as not given (`Value.isGiven`).
-/

namespace DbmlRestore

/-- A value of a settings file. -/
inductive Value where
  /-- Nothing. -/
  | null
  /-- A truth value. -/
  | bool (b : Bool)
  /-- An integer. -/
  | int (i : Int)
  /-- A floating-point number. -/
  | float (x : Binary64)
  /-- A string. -/
  | string (w : Wording)
  /-- A date or a time. -/
  | moment (m : Moment)
  /-- A list of values. -/
  | array (items : List Value)
  /-- Values under keys, in order, each key once. -/
  | table (members : List (Wording × Value))
deriving Repr

namespace Value

/-- The members of a table. -/
abbrev Members := List (Wording × Value)

/-- The value of a key. -/
def Members.find? (members : Members) (key : Text) : Option Value :=
  (List.find? (fun m => m.1 = .text key) members).map (·.2)

/-- Sets the value of a key, which keeps its place if it is there already. -/
def Members.insert (key : Wording) (value : Value) : Members → Members
  | [] => [(key, value)]
  | (k, v) :: members =>
    if k = key then (k, value) :: members else (k, v) :: Members.insert key value members

/-- Whether a value counts as given. -/
def isGiven : Value → Bool
  | .null => false
  | .bool b => b
  | .int i => i != 0
  | .float x => !x.isZero
  | .string w => !w.isEmpty
  | .moment _ => true
  | .array vs => !vs.isEmpty
  | .table ms => !ms.isEmpty

/-! ## Showing -/

mutual

/-- A value as it is shown inside of a list or a table. -/
def shown : Value → Text
  | .null => "None".toList
  | .bool true => "True".toList
  | .bool false => "False".toList
  | .int i => Text.ofInt i
  | .float x => x.text
  | .string w => w.quoted
  | .moment m => m.parts
  | .array [] => ['[', ']']
  | .array (v :: vs) => '[' :: shown v ++ shownItems vs ++ [']']
  | .table [] => ['\x7b', '\x7d']
  | .table (m :: ms) => '\x7b' :: shownMember m ++ shownMembers ms ++ ['\x7d']
termination_by structural v => v

/-- The items after the first one. -/
def shownItems : List Value → Text
  | [] => []
  | v :: vs => ',' :: ' ' :: shown v ++ shownItems vs
termination_by structural vs => vs

/-- A key with its value. -/
def shownMember : Wording × Value → Text
  | (k, v) => k.quoted ++ ':' :: ' ' :: shown v
termination_by structural m => m

/-- The members after the first one. -/
def shownMembers : List (Wording × Value) → Text
  | [] => []
  | m :: ms => ',' :: ' ' :: shownMember m ++ shownMembers ms
termination_by structural ms => ms

end

/-- A value as a wording: a string as it is, and a moment by its usual form. -/
def wording : Value → Wording
  | .string w => w
  | .moment m => .text m.text
  | v => .text v.shown

/-! ## Long integers -/

/-- The least number with too many digits to be shown: one and 4300 zeros. -/
def shownBound : Nat := Nat.pow 10 4300

mutual

/-- Whether a value has an integer in it that is too long to be shown. -/
def isTooLong : Value → Bool
  | .int i => shownBound ≤ i.natAbs
  | .array vs => anyTooLong vs
  | .table ms => anyMemberTooLong ms
  | _ => false
termination_by structural v => v

/-- Whether one of some items has such an integer. -/
def anyTooLong : List Value → Bool
  | [] => false
  | v :: vs => isTooLong v || anyTooLong vs
termination_by structural vs => vs

/-- Whether the value of a key has such an integer. -/
def isMemberTooLong : Wording × Value → Bool
  | (_, v) => isTooLong v
termination_by structural m => m

/-- Whether one of some members has such an integer. -/
def anyMemberTooLong : List (Wording × Value) → Bool
  | [] => false
  | m :: ms => isMemberTooLong m || anyMemberTooLong ms
termination_by structural ms => ms

end

/-! ## From JSON -/

mutual

/-- A JSON value as a value of settings. -/
def ofJson : Json → Value
  | .null => .null
  | .bool b => .bool b
  | .int i => .int i
  | .float x => .float x
  | .string w => .string w
  | .array vs => .array (ofItems vs)
  | .object ms => .table (ofMembers ms)
termination_by structural v => v

/-- The items of an array. -/
def ofItems : List Json → List Value
  | [] => []
  | v :: vs => ofJson v :: ofItems vs
termination_by structural vs => vs

/-- A key with its value. -/
def ofMember : Wording × Json → Wording × Value
  | (k, v) => (k, ofJson v)
termination_by structural m => m

/-- The members of an object. -/
def ofMembers : List (Wording × Json) → List (Wording × Value)
  | [] => []
  | m :: ms => ofMember m :: ofMembers ms
termination_by structural ms => ms

end

end Value

end DbmlRestore
