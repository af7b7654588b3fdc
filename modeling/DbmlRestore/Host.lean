import DbmlRestore.Charset.Codec
import DbmlRestore.FileTree

/-!
# Hosts

What a command needs from the system it runs on: files and directories, codecs, the
variables of the environment, the directory it was started in, and two places to
print to. Commands are written for any host. What they do can be computed, and reasoned
about, on the hosts that work on a value, the `World`.

A file is written in two steps: it is emptied, or made, and then takes its content. Each
step may fail, the second one after a part of the content was stored. Printing does not
fail.
-/

namespace DbmlRestore

/-- What a path leads to. -/
inductive FileKind where
  /-- A file. -/
  | file
  /-- A directory. -/
  | directory
deriving Repr, DecidableEq

/-- The kind of an entry. -/
def Entry.kind : Entry → FileKind
  | .directory => .directory
  | .file _ => .file

/-- What a command needs from the system it runs on. -/
class Host (m : Type → Type) where
  /-- What a path leads to, if anything. -/
  kind? : Path → m (Except SystemError (Option FileKind))
  /-- The content of a file. -/
  read : Path → m (Except SystemError Charset.Bytes)
  /-- Makes a file, or takes the content from one that is there. -/
  empty : Path → m (Except SystemError Unit)
  /-- Stores the content of a file that is empty. -/
  store : Path → Charset.Bytes → m (Except SystemError Unit)
  /-- Makes a directory. -/
  makeDirectory : Path → m (Except SystemError Unit)
  /-- The codec of a name. -/
  codec : Wording → m (Except Codec.LookupFault Codec)
  /-- The value of a variable of the environment. -/
  environment? : Text → m (Option Text)
  /-- The directory that the command was started in. -/
  startDirectory : m Path
  /-- Prints a result. -/
  print : Text → m Unit
  /-- Prints a report, for the user to see apart from the result. -/
  report : Text → m Unit

namespace Host

variable {m : Type → Type} [Monad m] [Host m]

/-- Whether a path leads to a file. -/
def isFile (p : Path) : m (Except SystemError Bool) := do
  return (← kind? p).map (· == some .file)

/-- Whether a path leads to anything. -/
def isThere (p : Path) : m (Except SystemError Bool) := do
  return (← kind? p).map (·.isSome)

/-- What became of making a directory: one that is there already is as good as a new
    one. -/
def acceptDirectory (p : Path) (e : SystemError) : m (Except SystemError Unit) := do
  match ← kind? p with
  | .ok (some .directory) => return .ok ()
  | .ok _ => return .error e
  | .error e => return .error e

/-- Makes a directory and the directories that it is in, as far as they are not
    there; the parts of the path are given from the last one on. -/
def makeDirectoriesFrom (root : PathRoot) : (parts : List Text) → m (Except SystemError Unit)
  | [] => do
    match ← makeDirectory ⟨root, []⟩ with
    | .ok () => return .ok ()
    | .error e => if e.fault = .notFound then return .error e else acceptDirectory ⟨root, []⟩ e
  | part :: above => do
    let p : Path := ⟨root, (part :: above).reverse⟩
    match ← makeDirectory p with
    | .ok () => return .ok ()
    | .error e =>
      if e.fault = .notFound then
        match ← makeDirectoriesFrom root above with
        | .error e => return .error e
        | .ok () =>
          match ← makeDirectory p with
          | .ok () => return .ok ()
          | .error e => if e.fault = .notFound then return .error e else acceptDirectory p e
      else acceptDirectory p e

/-- Makes a directory and the directories that it is in, as far as they are not
    there. -/
def makeDirectories (p : Path) : m (Except SystemError Unit) :=
  makeDirectoriesFrom p.root p.parts.reverse

end Host

end DbmlRestore
