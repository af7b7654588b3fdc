import DbmlRestore.Cli.Literal.Token
import Std.Data.HashMap

/-!
# Patterns of tokens

A grammar is given by rules, each of which has a *pattern* (`Pattern`): what it wants to see,
piece by piece, with alternatives in the order in which they are tried. The first alternative
that fits is taken for good. What a pattern has read is handed on as trees (`Tree`).

Patterns also say what is wrong with tokens that fit no rule. A pattern may be there only to
be *refused* (`Pattern.refuse`): it describes a mistake, and if it fits, its message is the
outcome of the whole reading. Most of these patterns are tried in a second reading only
(`Pattern.strictly`), after the first one has found no way through (`Grammar.read`); if none
of them fits, the message is the one for any other mistake.

What a rule finds at a place may be *kept*, so that it is not read there again.
-/

namespace DbmlRestore

namespace Cli

namespace Literal

/-! ## Trees -/

/-- What an expression with parts is. -/
inductive Form where
  /-- Strings in a row. -/
  | strings
  /-- Values between commas. -/
  | tuple
  /-- Values in curly brackets. -/
  | set
  /-- Pairs in curly brackets. -/
  | dict
  /-- A pair of a key and a value. -/
  | pair
  /-- A value with two stars. -/
  | unpacked
  /-- A value with a star. -/
  | starred
  /-- A plus or minus sign with a value. -/
  | sign
  /-- A sum or difference of two values. -/
  | sum
  /-- Another operation. -/
  | operation
  /-- Comparisons that start with a question for a member. -/
  | membership
  /-- Other comparisons. -/
  | comparison
  /-- A choice of two values. -/
  | conditional
  /-- A value that is given a name. -/
  | named
  /-- A part of a value. -/
  | attribute
  /-- A call. -/
  | call
  /-- The arguments of a call. -/
  | arguments
  /-- An argument with a name. -/
  | keyword
  /-- A function without a name. -/
  | function
  /-- Values from a loop, one by one. -/
  | generator
  /-- Values from a loop, as a set. -/
  | setLoop
  /-- Pairs from a loop, as a dict. -/
  | dictLoop
  /-- A value that is handed out. -/
  | yielded
  /-- A value that is waited for. -/
  | awaited
deriving Repr, DecidableEq

/-- What a pattern has read. -/
inductive Tree where
  /-- A token. -/
  | leaf (token : Token)
  /-- An expression with parts. -/
  | node (form : Form) (parts : List Tree)
deriving Repr

/-- The first tree, put before the parts of the second one, and so on: what stands behind
    a value is about all that stands before it. -/
def Tree.attached : List Tree → List Tree
  | [] => []
  | t :: ts =>
    [ts.foldl (fun t s => match s with
      | .node form parts => .node form (t :: parts)
      | .leaf _ => t) t]

/-! ## Patterns -/

/-- A pattern of tokens, in terms of the rules `ρ`. -/
inductive Pattern (ρ : Type) where
  /-- No token. -/
  | nothing
  /-- A token of a kind, which is a tree. -/
  | token (fits : Token → Bool)
  /-- A keyword or sign, which is no tree. -/
  | word (w : String)
  /-- The end. -/
  | stop
  /-- What a rule says. -/
  | rule (r : ρ)
  /-- One pattern, then another one. -/
  | both (p q : Pattern ρ)
  /-- One pattern or, if it does not fit, another one. -/
  | either (p q : Pattern ρ)
  /-- A pattern as often as it fits. -/
  | many (p : Pattern ρ)
  /-- A pattern that has to fit, but is not read. -/
  | ahead (p : Pattern ρ)
  /-- A pattern that must not fit. -/
  | notAhead (p : Pattern ρ)
  /-- A pattern whose trees are the parts of a new one. -/
  | node (form : Form) (p : Pattern ρ)
  /-- A pattern whose later trees are about the earlier ones (`Tree.attached`). -/
  | attach (p : Pattern ρ)
  /-- A pattern whose trees may have a fault. -/
  | check (p : Pattern ρ) (fault : List Tree → Option Text)
  /-- A mistake, with its message; it also depends on the number of brackets that are open
      after it. -/
  | refuse (p : Pattern ρ) (message : List Tree → Nat → Option Text)
  /-- A pattern that is tried only where mistakes are looked for. -/
  | strictly (p : Pattern ρ)
  /-- A pattern in which mistakes are not looked for. -/
  | plainly (p : Pattern ρ)

namespace Pattern

variable {ρ : Type}

/-- Patterns one after another. -/
def seq : List (Pattern ρ) → Pattern ρ
  | [] => nothing
  | [p] => p
  | p :: ps => both p (seq ps)

/-- Patterns of which the first one that fits is taken. -/
def choice : List (Pattern ρ) → Pattern ρ
  | [] => notAhead nothing
  | [p] => p
  | p :: ps => either p (choice ps)

/-- A pattern or nothing. -/
def opt (p : Pattern ρ) : Pattern ρ := either p nothing

/-- A pattern at least once. -/
def repeated (p : Pattern ρ) : Pattern ρ := both p (many p)

/-- A pattern at least once, with commas between. -/
def commas (p : Pattern ρ) : Pattern ρ := both p (many (both (word ",") p))

/-- One of several keywords or signs. -/
def words (ws : List String) : Pattern ρ := choice (ws.map word)

end Pattern

/-! ## Reading -/

/-- What comes of reading a pattern. -/
inductive Outcome where
  /-- It does not fit. -/
  | unfit
  /-- It fits, with the trees and the place after it. -/
  | fit (trees : List Tree) (place : Nat)
  /-- There is a mistake. -/
  | fault (message : Text)

/-- A grammar. -/
structure Grammar (ρ : Type) where
  /-- The pattern of each rule. -/
  pattern : ρ → Pattern ρ
  /-- Whether what a rule finds is kept. -/
  keeps : ρ → Bool

/-- What rules have found at places. -/
abbrev Found (ρ : Type) [BEq ρ] [Hashable ρ] := Std.HashMap (ρ × Nat) Outcome

/-- What is read. -/
structure Source where
  /-- The tokens, with the numbers of open brackets. -/
  tokens : Array (Token × Nat)
  /-- What is wrong at the end. -/
  ending : Option Text

namespace Source

/-- Reads the token at a place if it fits. -/
def token (s : Source) (fits : Token → Bool) (trees : Token → List Tree) (place : Nat) :
    Outcome :=
  match s.tokens[place]?, s.ending with
  | some (t, _), _ => if fits t then .fit (trees t) (place + 1) else .unfit
  | none, some message => .fault message
  | none, none => .unfit

/-- Reads the end. -/
def stop (s : Source) (place : Nat) : Outcome :=
  match s.tokens[place]?, s.ending with
  | some _, _ => .unfit
  | none, some message => .fault message
  | none, none => .fit [] place

/-- The number of brackets that are open before a place. -/
def openBefore (s : Source) (place : Nat) : Nat :=
  ((s.tokens[place - 1]?).map (·.2)).getD 0

end Source

namespace Grammar

variable {ρ : Type} [BEq ρ] [Hashable ρ] (g : Grammar ρ) (s : Source)

/-- Reads a pattern at a place. `fuel` bounds the depth of the reading, and `strict` says
    that mistakes are looked for. -/
def readPattern : (fuel : Nat) → (strict : Bool) → Pattern ρ → (place : Nat) →
    StateM (Found ρ) Outcome
  | 0, _, _, _ => return .unfit
  | fuel + 1, strict, pattern, place => do
    match pattern with
    | .nothing => return .fit [] place
    | .token fits => return s.token fits (fun t => [.leaf t]) place
    | .word w => return s.token (Token.isWord w) (fun _ => []) place
    | .stop => return s.stop place
    | .rule r =>
      if g.keeps r then
        match (← get)[(r, place)]? with
        | some outcome => return outcome
        | none =>
          let outcome ← readPattern fuel strict (g.pattern r) place
          modify (·.insert (r, place) outcome)
          return outcome
      else readPattern fuel strict (g.pattern r) place
    | .both p q =>
      match ← readPattern fuel strict p place with
      | .fit ts place =>
        match ← readPattern fuel strict q place with
        | .fit us place => return .fit (ts ++ us) place
        | other => return other
      | other => return other
    | .either p q =>
      match ← readPattern fuel strict p place with
      | .unfit => readPattern fuel strict q place
      | other => return other
    | .many p =>
      match ← readPattern fuel strict p place with
      | .fit ts next =>
        match ← readPattern fuel strict (.many p) next with
        | .fit us next => return .fit (ts ++ us) next
        | other => return other
      | .unfit => return .fit [] place
      | .fault message => return .fault message
    | .ahead p =>
      match ← readPattern fuel strict p place with
      | .fit _ _ => return .fit [] place
      | other => return other
    | .notAhead p =>
      match ← readPattern fuel strict p place with
      | .fit _ _ => return .unfit
      | .unfit => return .fit [] place
      | .fault message => return .fault message
    | .node form p =>
      match ← readPattern fuel strict p place with
      | .fit ts place => return .fit [.node form ts] place
      | other => return other
    | .attach p =>
      match ← readPattern fuel strict p place with
      | .fit ts place => return .fit (Tree.attached ts) place
      | other => return other
    | .check p fault =>
      match ← readPattern fuel strict p place with
      | .fit ts place =>
        match fault ts with
        | some message => return .fault message
        | none => return .fit ts place
      | other => return other
    | .refuse p message =>
      match ← readPattern fuel strict p place with
      | .fit ts place =>
        match message ts (s.openBefore place) with
        | some message => return .fault message
        | none => return .unfit
      | other => return other
    | .strictly p => if strict then readPattern fuel strict p place else return .unfit
    | .plainly p => readPattern fuel false p place

/-- The message for a mistake that no pattern describes. -/
def noMeaning : Text := "invalid syntax".toList

/-- Reads tokens by a rule: first looking for a way through, then for a mistake. -/
def read (start : ρ) : Except Text (List Tree) :=
  let fuel := 100 * (s.tokens.size + 10)
  let reading (strict : Bool) : Outcome :=
    ((readPattern g s fuel strict (.rule start) 0).run Std.HashMap.emptyWithCapacity).run.1
  match reading false with
  | .fit ts _ => .ok ts
  | .fault message => .error message
  | .unfit =>
    match reading true with
    | .fault message => .error message
    | _ => .error noMeaning

end Grammar

end Literal

end Cli

end DbmlRestore
