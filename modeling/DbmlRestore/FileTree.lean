import DbmlRestore.Charset.Fault
import DbmlRestore.Path

/-!
# File trees

The files and directories that a command works on, each under its *address*: the
names of the directories from the root down to it. The root is a directory.

A path is followed step by step (`FileTree.follow`): each step, also a step up,
starts at a directory that is there. The last step may lead to an address with
nothing in it, where a file or a directory can then be made. What cannot be done
is told by a `SystemError` with the path as it was given.

Names and paths are limited in length, which counts the bytes of their UTF-8 form, and
no null character can be in them. A path with one leads nowhere, and one that is too
long cannot even be asked for (`FileTree.at?`).

Names are texts, each file has one address, and there are no links. In a tree alone only
such things go wrong as can be told from it; what else a system may refuse is told by a
`System`.
-/

namespace DbmlRestore

/-- What can be wrong with a file or a directory. -/
inductive SystemFault where
  /-- There is no such file or directory. -/
  | notFound
  /-- There is one already. -/
  | alreadyThere
  /-- A step does not start at a directory. -/
  | notDirectory
  /-- A directory stands where a file is asked for. -/
  | isDirectory
  /-- Access is not permitted. -/
  | denied
  /-- A name or a path is too long. -/
  | tooLong
  /-- A null character is in a path. -/
  | nullCharacter
  /-- Anything else, with its number and message. -/
  | other (number : Nat) (message : Text)
deriving Repr, DecidableEq

namespace SystemFault

/-- The number of a fault; a null character is found before the system sees it. -/
def number? : SystemFault → Option Nat
  | .notFound => some 2
  | .denied => some 13
  | .alreadyThere => some 17
  | .notDirectory => some 20
  | .isDirectory => some 21
  | .tooLong => some 36
  | .nullCharacter => none
  | .other n _ => some n

/-- The message for a fault. -/
def message : SystemFault → Text
  | .notFound => "No such file or directory".toList
  | .denied => "Permission denied".toList
  | .alreadyThere => "File exists".toList
  | .notDirectory => "Not a directory".toList
  | .isDirectory => "Is a directory".toList
  | .tooLong => "File name too long".toList
  | .nullCharacter => "embedded null byte".toList
  | .other _ m => m

/-- The name under which a fault is shown. -/
def typeName : SystemFault → Text
  | .notFound => "FileNotFoundError".toList
  | .denied => "PermissionError".toList
  | .alreadyThere => "FileExistsError".toList
  | .notDirectory => "NotADirectoryError".toList
  | .isDirectory => "IsADirectoryError".toList
  | .tooLong => "OSError".toList
  | .nullCharacter => "ValueError".toList
  | .other _ _ => "OSError".toList

end SystemFault

/-- A fault, with the path of the file or directory. -/
structure SystemError where
  /-- What is wrong. -/
  fault : SystemFault
  /-- The path. -/
  path : Path
deriving Repr, DecidableEq

/-- The message for an error: its number, what is wrong, and the path. -/
def SystemError.message (e : SystemError) : Text :=
  match e.fault.number? with
  | some n =>
    "[Errno ".toList ++ Text.ofNat n ++ "] ".toList ++ e.fault.message ++ ": ".toList ++
      Text.quoted e.path.toText
  | none => e.fault.message

/-- The bytes that a text takes on the system. -/
def byteCount (t : Text) : Nat := t.foldl (fun n c => n + c.utf8Size) 0

/-- The greatest number of bytes of a name. -/
def nameLimit : Nat := 255

/-- The greatest number of bytes of a path. -/
def pathLimit : Nat := 4095

/-- The names of the directories from the root down to a file or directory. -/
abbrev Address := List Text

/-- What stands at an address. -/
inductive Entry where
  /-- A directory. -/
  | directory
  /-- A file with its content. -/
  | file (content : Charset.Bytes)
deriving Repr, DecidableEq

/-- Files and directories under their addresses. -/
structure FileTree where
  /-- The entries, each address once. -/
  entries : List (Address × Entry)
deriving Repr, DecidableEq

namespace FileTree

/-- What stands at an address; the root is a directory. -/
def entry? (t : FileTree) (l : Address) : Option Entry :=
  if l.isEmpty then some .directory
  else (t.entries.find? fun e => e.1 = l).map (·.2)

/-- Puts an entry at an address, which keeps its place if it is there already. -/
def insertEntry (l : Address) (x : Entry) :
    List (Address × Entry) → List (Address × Entry)
  | [] => [(l, x)]
  | e :: es => if e.1 = l then (l, x) :: es else e :: insertEntry l x es

/-- The tree with an entry at an address. -/
def insert (t : FileTree) (l : Address) (x : Entry) : FileTree :=
  ⟨insertEntry l x t.entries⟩

/-- The address that some steps from an address lead to. -/
def follow (t : FileTree) : Address → List Text → Except SystemFault Address
  | l, [] => .ok l
  | l, p :: ps =>
    match t.entry? l with
    | none => .error .notFound
    | some (.file _) => .error .notDirectory
    | some .directory =>
      if nameLimit < byteCount p then .error .tooLong
      else if p = Path.up then t.follow l.dropLast ps
      else t.follow (l ++ [p]) ps

/-- The address of an absolute path. -/
def locate (t : FileTree) (p : Path) : Except SystemFault Address :=
  if p.hasNull then .error .nullCharacter
  else if pathLimit < byteCount p.toText then .error .tooLong
  else t.follow [] p.parts

/-- What a path leads to, if anything; a path that is too long cannot be asked for. -/
def at? (t : FileTree) (p : Path) : Except SystemError (Option Entry) :=
  match t.locate p with
  | .ok l => .ok (t.entry? l)
  | .error .tooLong => .error ⟨.tooLong, p⟩
  | .error _ => .ok none

/-- The content of a file. -/
def read (t : FileTree) (p : Path) : Except SystemError Charset.Bytes :=
  match t.locate p with
  | .error fault => .error ⟨fault, p⟩
  | .ok l =>
    match t.entry? l with
    | none => .error ⟨.notFound, p⟩
    | some .directory => .error ⟨.isDirectory, p⟩
    | some (.file content) => .ok content

/-- The tree with a new content of a file, which is made if it is not there. -/
def write (t : FileTree) (p : Path) (content : Charset.Bytes) : Except SystemError FileTree :=
  match t.locate p with
  | .error fault => .error ⟨fault, p⟩
  | .ok l =>
    match t.entry? l with
    | some .directory => .error ⟨.isDirectory, p⟩
    | _ => .ok (t.insert l (.file content))

/-- The tree with a new directory. -/
def makeDirectory (t : FileTree) (p : Path) : Except SystemError FileTree :=
  match t.locate p with
  | .error fault => .error ⟨fault, p⟩
  | .ok l =>
    match t.entry? l with
    | some _ => .error ⟨.alreadyThere, p⟩
    | none => .ok (t.insert l .directory)

end FileTree

end DbmlRestore
