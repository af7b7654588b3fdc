import DbmlRestore.Cli.Run

/-!
# The program

The system that the program is started on, as a host, and the entry point. A path
leads to a file if its content can be read, and to a directory if reading says so. The
codecs are those of the known charsets.
-/

namespace DbmlRestore

namespace Cli

/-- What is wrong with a file or a directory. -/
def faultOf : IO.Error → SystemFault
  | .noFileOrDirectory .. => .notFound
  | .alreadyExists .. => .alreadyThere
  | .permissionDenied .. => .denied
  | .inappropriateType _ 20 _ => .notDirectory
  | .inappropriateType .. => .isDirectory
  | .invalidArgument _ 36 _ => .tooLong
  | e => .other 5 (toString e).toList

/-- The name of a path on the system. -/
def systemName (p : Path) : String := String.ofList p.toText

/-- Does something with a path, and tells what is wrong if that fails. -/
def attempt {α : Type} (p : Path) (deed : String → IO α) : IO (Except SystemError α) := do
  if p.hasNull then return .error ⟨.nullCharacter, p⟩
  try
    return .ok (← deed (systemName p))
  catch e => return .error ⟨faultOf e, p⟩

/-- The content of a file. -/
def readContent (p : Path) : IO (Except SystemError Charset.Bytes) :=
  attempt p fun name => do return (← IO.FS.readBinFile name).toList

/-- The host is the machine that the program runs on. -/
instance : Host IO where
  kind? p := do
    match ← readContent p with
    | .ok _ => return .ok (some .file)
    | .error e =>
      match e.fault with
      | .isDirectory => return .ok (some .directory)
      | .denied => return .ok (some .file)
      | .tooLong => return .error e
      | _ => return .ok none
  read := readContent
  empty p := attempt p fun name => IO.FS.writeBinFile name .empty
  store p content := attempt p fun name => IO.FS.writeBinFile name ⟨content.toArray⟩
  makeDirectory p := attempt p fun name => IO.FS.createDir name
  codec name := return Charset.registry name
  environment? name := do return (← IO.getEnv (String.ofList name)).map String.toList
  startDirectory := do return .ofText (toString (← IO.currentDir)).toList
  print t := IO.print (String.ofList t)
  report t := IO.eprint (String.ofList t)

end Cli

end DbmlRestore

open DbmlRestore in
/-- Runs the program on the system; a failure that is handed on is reported here. -/
def main (args : List String) : IO UInt32 := do
  match ← (Cli.run (args.map String.toList) : IO Cli.Ending) with
  | .exit status => return status.toUInt32
  | .raised f =>
    Host.report (f.format true ++ ['\n'])
    return 1
