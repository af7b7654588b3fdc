import DbmlRestore.Text.Wording

/-!
# Paths

A path is absolute or relative and has parts with slashes between them. Reading a
path drops empty parts and single dots, but keeps two dots, because what they mean
depends on the directories that are there. Two slashes at the start, and no more
than two, are a start of their own.

The *name* of a path is its last part, and its *suffix* what the name has from its
last dot on, if that dot is neither at the start nor at the end of the name.
-/

namespace DbmlRestore

/-- Where a path starts. -/
inductive PathRoot where
  /-- At a directory known otherwise. -/
  | relative
  /-- At the root. -/
  | slash
  /-- At the root, written with two slashes. -/
  | twoSlashes
deriving Repr, DecidableEq

/-- A path. -/
structure Path where
  /-- Where it starts. -/
  root : PathRoot
  /-- Its parts. -/
  parts : List Text
deriving Repr, DecidableEq

/-- Why a path has no neighbour of a given name. -/
inductive NameFault where
  /-- The path has no name to replace. -/
  | emptyName (path : Path)
  /-- The new name is not a single part. -/
  | invalidName (name : Wording)
deriving Repr, DecidableEq

/-- How a path starts when it is written. -/
def PathRoot.text : PathRoot → Text
  | .relative => []
  | .slash => ['/']
  | .twoSlashes => ['/', '/']

namespace Path

/-- The directory up one level. -/
def up : Text := ['.', '.']

/-- The parts of a text between its slashes that count. -/
def partsOf (t : Text) : List Text :=
  (Text.splitAt '/' t).filter fun p => !p.isEmpty && p != ['.']

/-- Where a path that is written so starts. -/
def rootOf : Text → PathRoot
  | '/' :: '/' :: '/' :: _ => .slash
  | '/' :: '/' :: _ => .twoSlashes
  | '/' :: _ => .slash
  | _ => .relative

/-- The path that a text writes. -/
def ofText (t : Text) : Path := ⟨rootOf t, partsOf t⟩

/-- A path as a text; the empty relative path is a dot. -/
def toText (p : Path) : Text :=
  match p.root, p.parts with
  | .relative, [] => ['.']
  | root, parts => root.text ++ Text.joined ['/'] parts

/-- Whether a path starts at the root. -/
def isAbsolute (p : Path) : Bool := p.root != .relative

/-- Whether a null character is in a path. -/
def hasNull (p : Path) : Bool := p.parts.any (·.contains '\x00')

/-- The path `q` seen from the directory `p`. -/
def append (p q : Path) : Path :=
  if q.isAbsolute then q else ⟨p.root, p.parts ++ q.parts⟩

/-- The path of the file `name` in the directory `p`. -/
def child (p : Path) (name : Text) : Path := ⟨p.root, p.parts ++ [name]⟩

/-- The directory that a path is in. -/
def parent (p : Path) : Path := ⟨p.root, p.parts.dropLast⟩

/-- The last part of a path; empty if there is none. -/
def name (p : Path) : Text := p.parts.getLast?.getD []

/-- What the name has from its last dot on, if the dot is inside of the name. -/
def suffix (p : Path) : Text :=
  let after := p.name.reverse.takeWhile (· != '.')
  let before := p.name.reverse.drop (after.length + 1)
  if after.isEmpty || before.isEmpty then [] else '.' :: after.reverse

/-- The path with another name, which must be a single part. -/
def withName (p : Path) (name : Text) : Except NameFault Path :=
  if p.name.isEmpty then .error (.emptyName p)
  else if name.getLast? = some '/' ∨ rootOf name ≠ .relative ∨ (partsOf name).length ≠ 1 then
    .error (.invalidName (.text name))
  else .ok (p.parent.child name)

/-- The parts of a path with each step up taken; at the root a step up stays there. -/
def resolveParts : (done : List Text) → List Text → List Text
  | done, [] => done
  | done, p :: ps =>
    if p = up then resolveParts done.dropLast ps else resolveParts (done ++ [p]) ps

/-- The path as seen from the directory `cwd`, with each step up taken. -/
def resolve (cwd p : Path) : Path :=
  ⟨.slash, resolveParts [] (cwd.append p).parts⟩

end Path

/-- The message for a name that cannot be taken. -/
def NameFault.message : NameFault → Text
  | .emptyName path =>
    "PosixPath(".toList ++ Text.quoted path.toText ++ ") has an empty name".toList
  | .invalidName name => "Invalid name ".toList ++ name.quoted

end DbmlRestore
