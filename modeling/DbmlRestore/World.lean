import DbmlRestore.Charset
import DbmlRestore.Host

/-!
# Worlds

A world is a value that a host works on: the files, the variables of the environment, the
directory that commands are started in, and what was printed so far. A command is then a
function from a world to a world.

What a world does not tell is told by a *system*: which codecs there are, and what goes wrong
although the files allow it. A device may refuse any request, also to store the content of a
file that it has emptied, and then a part of the content may have been stored. So there is
a host for each system (`On`), and what holds of all systems does not hang on the codecs and
devices. On a sound system nothing goes wrong, and there are the known charsets.
-/

namespace DbmlRestore

/-- All that a command can see and change. -/
structure World where
  /-- The files and directories. -/
  tree : FileTree
  /-- The variables of the environment. -/
  environment : List (Text × Text) := []
  /-- The directory that commands are started in. -/
  directory : Path
  /-- The results printed so far. -/
  output : Text := []
  /-- The reports printed so far. -/
  reports : Text := []
deriving Repr, DecidableEq

/-- Changes the files, or leaves them as they are if that is not possible. -/
def World.change (w : World) (f : FileTree → Except SystemError FileTree) :
    Except SystemError Unit × World :=
  match f w.tree with
  | .ok tree => (.ok (), { w with tree := tree })
  | .error e => (.error e, w)

/-- What a system is asked to do with a path. -/
inductive Request where
  /-- To tell what it leads to. -/
  | look
  /-- To read a file. -/
  | read
  /-- To make a file or to empty it. -/
  | empty
  /-- To make a directory. -/
  | makeDirectory
deriving Repr, DecidableEq

/-- What a world does not tell. -/
structure System where
  /-- The codecs. -/
  codecs : Codec.Registry
  /-- What is wrong with a request that is refused, although the files allow it. -/
  refuses : World → Request → Path → Option SystemFault
  /-- If the content of a file cannot be stored: the number of bytes that are stored all the
      same, and what is wrong. -/
  breaksOff : World → Path → Charset.Bytes → Option (Nat × SystemFault)

/-- The system with the known charsets, on which nothing goes wrong. -/
def System.sound : System where
  codecs := Charset.registry
  refuses _ _ _ := none
  breaksOff _ _ _ := none

/-- What gives an `α` on a system and changes the world. -/
def On (_sys : System) (α : Type) : Type := StateM World α

namespace On

variable {sys : System} {α : Type}

instance : Monad (On sys) := inferInstanceAs (Monad (StateM World))

/-- The result in a world, and the world afterwards. -/
def run (x : On sys α) (w : World) : α × World := x w

/-- The result of a request, unless the system refuses it. -/
def unlessRefused (request : Request) (p : Path) (x : On sys (Except SystemError α)) :
    On sys (Except SystemError α) := fun w =>
  match sys.refuses w request p with
  | some fault => (.error ⟨fault, p⟩, w)
  | none => x w

/-- Stores the content of a file, or the part of it that the system has got when it breaks
    off. -/
def storeContent (p : Path) (content : Charset.Bytes) : On sys (Except SystemError Unit) := fun w =>
  match sys.breaksOff w p content with
  | none => w.change (·.write p content)
  | some (count, fault) => (.error ⟨fault, p⟩, (w.change (·.write p (content.take count))).2)

/-- What is asked of the host happens in the world, unless the system refuses it. -/
instance : Host (On sys) where
  kind? p := unlessRefused .look p fun w => ((w.tree.at? p).map (·.map Entry.kind), w)
  read p := unlessRefused .read p fun w => (w.tree.read p, w)
  empty p := unlessRefused .empty p fun w => w.change (·.write p [])
  store p content := storeContent p content
  makeDirectory p := unlessRefused .makeDirectory p fun w => w.change (·.makeDirectory p)
  codec name := fun w => (sys.codecs name, w)
  environment? name := fun w => ((w.environment.find? (·.1 = name)).map (·.2), w)
  startDirectory := fun w => (w.directory, w)
  print t := fun w => ((), { w with output := w.output ++ t })
  report t := fun w => ((), { w with reports := w.reports ++ t })

end On

end DbmlRestore
