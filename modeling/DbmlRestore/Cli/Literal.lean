import DbmlRestore.Cli.Literal.Expression

/-!
# Literals

A literal is an expression whose value is there to be read: a number, a string, one of the
words `True`, `False` and `None`, three points, and tuples, sets and dicts of literals. A
number may have a sign, and a real number may have an imaginary one added or subtracted.
The elements of a set and the keys of a dict must not be sets or dicts, and no tuples with
these in them.

A text may fail to be a literal in two ways (`Literal.Fault`): it is no expression, or it is
one of another kind.
-/

namespace DbmlRestore

namespace Cli

namespace Literal

/-- Why a text is not a literal. -/
inductive Fault where
  /-- It is no expression. -/
  | grammar (message : Text)
  /-- It is an expression of another kind. -/
  | value (message : Text)
deriving Repr, DecidableEq

/-- What matters of the value of a literal. -/
inductive Kind where
  /-- A real number. -/
  | real
  /-- An imaginary number. -/
  | imaginary
  /-- Another value that may be in a set. -/
  | plain
  /-- A value that must not be in a set, because of a part of the given type. -/
  | fluid (type : String)
deriving Repr, DecidableEq

namespace Kind

/-- The kind of a number. -/
def ofNumber (isImaginary : Bool) : Kind := if isImaginary then imaginary else real

/-- The kind of a tuple, from the kinds of its parts. -/
def ofTuple (parts : List Kind) : Kind :=
  (parts.find? fun | fluid _ => true | _ => false).getD plain

/-- A kind that may be in a set. -/
def fixed : Kind → Except Text Unit
  | fluid type => .error ("unhashable type: \x27".toList ++ type.toList ++ ['\x27'])
  | _ => .ok ()

end Kind

/-- The message for an expression that is not a literal. -/
def malformed : Text := "malformed node or string".toList

/-- Whether an expression is a real number, with a sign or without. -/
def Tree.isReal : Tree → Bool
  | .leaf (.number false _) => true
  | .node .sign [.leaf (.number false _)] => true
  | _ => false

mutual

/-- The kind of the value of a literal. -/
def Tree.kind : Tree → Except Text Kind
  | .leaf (.number isImaginary _) => .ok (.ofNumber isImaginary)
  | .leaf (.name t) => if Token.isName (.name t) then .error malformed else .ok .plain
  | .leaf (.sign _) => .ok .plain
  | .node .strings parts =>
    if parts.any (fun | .leaf (.string letters _) => letters.contains 'f' | _ => false) then
      .error malformed
    else .ok .plain
  | .node .tuple parts => (Tree.kinds parts).map Kind.ofTuple
  | .node .set parts => do
    Tree.fixedKinds parts
    return .fluid "set"
  | .node .dict parts => do
    Tree.fixedKinds parts
    return .fluid "dict"
  | .node .pair [key, value] => do
    let key ← key.kind
    let _ ← value.kind
    return key
  | .node .unpacked _ => .error (malformed ++ ": None".toList)
  | .node .call [.leaf (.name t)] =>
    if t = "set".toList then .ok (.fluid "set") else .error malformed
  | .node .sign [.leaf (.number isImaginary _)] => .ok (.ofNumber isImaginary)
  | .node .sum [t, .leaf (.number true _)] =>
    if t.isReal then .ok .imaginary else .error malformed
  | _ => .error malformed

/-- The kinds of the values of literals. -/
def Tree.kinds : List Tree → Except Text (List Kind)
  | [] => .ok []
  | t :: ts => do
    let kind ← t.kind
    return kind :: (← Tree.kinds ts)

/-- Checks literals that are the elements of a set, or pairs whose keys are those of a
    dict. -/
def Tree.fixedKinds : List Tree → Except Text Unit
  | [] => .ok ()
  | t :: ts => do
    (← t.kind).fixed
    Tree.fixedKinds ts

end

/-- Checks that a text is a literal. -/
def check (t : Text) : Except Fault Unit := do
  let cutting ← (cut t).mapError .grammar
  let trees ← (grammar.read ⟨cutting.tokens.toArray, cutting.ending⟩ .whole).mapError .grammar
  let _ ← (Tree.kinds trees).mapError .value

end Literal

end Cli

end DbmlRestore
