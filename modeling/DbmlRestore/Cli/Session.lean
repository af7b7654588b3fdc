import DbmlRestore.Cli.Failure
import DbmlRestore.Config
import DbmlRestore.Snapshot.Wire

/-!
# Sessions

What the commands share: the directory of the workspace, its settings, and whether
they keep a log. Relative paths are seen from the workspace, and schema files and
snapshots are read and written by the codec of the settings.

A file is emptied before the wording for it is encoded. One that cannot be encoded thus
leaves an empty file behind (`Session.fill`), and one that cannot be stored leaves a part
of it.

Snapshots are written under names that are texts. A name with half of a surrogate pair is
refused, also where a system would take it for a byte.
-/

namespace DbmlRestore

namespace Cli

/-- What the commands share. -/
structure Session where
  /-- The directory of the workspace. -/
  root : Path
  /-- The settings. -/
  config : Config
  /-- Whether a log is kept. -/
  logging : Bool
deriving Repr

/-- What a command does on a host: it fails, or gives a result. -/
abbrev Action (m : Type → Type) := ExceptT Failure m

section

variable {m : Type → Type} [Monad m] [Host m]

/-- A step that can fail asks the host beneath it. -/
instance : Host (ExceptT Failure m) where
  kind? p := ExceptT.lift (Host.kind? p)
  read p := ExceptT.lift (Host.read p)
  empty p := ExceptT.lift (Host.empty p)
  store p content := ExceptT.lift (Host.store p content)
  makeDirectory p := ExceptT.lift (Host.makeDirectory p)
  codec name := ExceptT.lift (Host.codec name)
  environment? name := ExceptT.lift (Host.environment? name)
  startDirectory := ExceptT.lift Host.startDirectory
  print t := ExceptT.lift (Host.print t)
  report t := ExceptT.lift (Host.report t)

end

namespace Session

/-- The path of a file of the workspace. -/
def resolve (s : Session) (file : Text) : Path := s.root.append (.ofText file)

/-- The failure to do something, because of another failure. -/
def unable (deed : String) (p : Path) (f : Failure) : Failure :=
  .cli (f.wrap { kind := .runtime, message := deed.toList ++ ' ' :: p.toText })

/-- A fault of the system as a failure. -/
def systemFailure (e : SystemError) : Failure := .host e.fault.typeName e.message

section

variable {m : Type → Type} [Monad m] [Host m]

/-- Adds a line to the log, if one is kept. -/
def log (s : Session) (source : String) (message : Text) : Action m Unit :=
  if s.logging then
    Host.report (source.toList ++ " - DEBUG - ".toList ++ message ++ ['\n'])
  else pure ()

/-! ## Reading -/

/-- The failure of a codec. -/
def codecFailure (f : Codec.Fault) : Failure := .host f.typeName f.message

/-- The codec of the settings. -/
def codec (s : Session) : Action m Codec := do
  match ← Host.codec s.config.defaults.encoding with
  | .error f => throw (.host f.typeName f.message)
  | .ok c => return c

/-- The failure to decode the content of a file. It is told as one to read the file if it tells
    which bytes are wrong. -/
def decodeFailure (p : Path) (f : Codec.Fault) : Failure :=
  if f.tellsBytes then unable "Could not read" p (codecFailure f) else codecFailure f

/-- What a file holds. -/
def readText (s : Session) (p : Path) : Action m Wording := do
  match ← Host.read p with
  | .error e => throw (unable "Could not read" p (systemFailure e))
  | .ok content =>
    let c ← s.codec
    match c.decode content with
    | .error f => throw (decodeFailure p f)
    | .ok w => return w

/-- Whether a path leads to a file. -/
def isFile (p : Path) : Action m Bool := do
  match ← Host.isFile p with
  | .ok b => return b
  | .error e => throw (systemFailure e)

/-- What a schema file holds, which must have an accepted suffix if `strict`. -/
def readSchema (s : Session) (file : Text) (strict : Bool) : Action m Wording := do
  let p := s.resolve file
  if !(← isFile p) then
    throw (.cli
      { kind := .fileNotFound
        message := "Schema file not found: ".toList ++ p.toText
        context := [("path".toList, p.toText)] })
  if strict && !s.config.accepts p then
    throw (.cli
      { kind := .validation
        message := "Unsupported schema file: ".toList ++ p.name
        hint := some ("Accepted suffixes: ".toList ++
          Text.joined ", ".toList (s.config.defaults.suffixes.map (·.visible))) })
  s.readText p

/-- The failure for a snapshot that cannot be read. -/
def snapshotFailure (p : Path) (e : SnapshotError) : Failure :=
  match e.report (some p.toText), e with
  | some r, _ => .cli
    { kind := .runtime
      message := r.format
      code := "CLI_SNAPSHOT_INVALID".toList
      hint := r.hint }
  | none, .digits n => .host "ValueError".toList (digitsMessage n)
  | none, _ => .host "ValueError".toList []

/-- The snapshot in a file. -/
def readSnapshot (s : Session) (file : Text) : Action m (Snapshot Wording) := do
  let p := s.resolve file
  if !(← isFile p) then
    throw (.cli
      { kind := .fileNotFound
        message := "Snapshot file not found: ".toList ++ p.toText
        hint := some "Create one with 'dbmlkeep extract SOURCE -o auto'".toList })
  match Snapshot.ofWording (← s.readText p) with
  | .error e => throw (snapshotFailure p e)
  | .ok snapshot =>
    s.log "dbmlkeep.snapshot" ("Loaded snapshot with ".toList ++
      Text.ofNat snapshot.order.length ++ " tables and ".toList ++
      Text.ofNat snapshot.comments.length ++ " comments".toList)
    return snapshot

/-! ## Writing -/

/-- The failure to write to a path. A null character in the path is no fault of the
    system, and is told as it is. -/
def writeFailure (p : Path) (e : SystemError) : Failure :=
  if e.fault = .nullCharacter then systemFailure e
  else unable "Could not write" p (systemFailure e)

/-- Stores a wording in a file that is empty. -/
def fill (s : Session) (p : Path) (w : Wording) : Action m Unit := do
  let c ← s.codec
  match c.encode w with
  | .error f => throw (codecFailure f)
  | .ok content =>
    match ← Host.store p content with
    | .error e => throw (writeFailure p e)
    | .ok () => s.log "dbmlkeep.cli.context" ("Wrote ".toList ++ p.toText)

/-- Writes a wording to a file, and makes the directories that it is in. -/
def writeFile (s : Session) (p : Path) (w : Wording) : Action m Unit := do
  match ← (Host.makeDirectories p.parent : m _) with
  | .error e => throw (writeFailure p e)
  | .ok () =>
    -- The file is there, and empty, before its codec is known or the wording encoded.
    match ← Host.empty p with
    | .error e => throw (writeFailure p e)
    | .ok () => s.fill p w

/-- The file that an output is: no output, or a dash, is none. -/
def outputFile? (output : Option Text) : Option Text :=
  (Text.present? output).filter (· ≠ ['-'])

/-- Writes a wording to the output that was asked for, or prints it. -/
def writeOutput (s : Session) (w : Wording) (output : Option Text) : Action m Unit :=
  match outputFile? output with
  | none => Host.print w.visible
  | some file => s.writeFile (s.resolve file) w

/-- Where the snapshot of a schema file is written if no other place is asked for. -/
def snapshotOutput (s : Session) (source : Text) : Except Failure Text :=
  let file := s.resolve source
  match s.config.snapshotPath file with
  | .error f => .error (.host "ValueError".toList f.message)
  | .ok p =>
    match s.config.snapshotName file with
    | .text _ => .ok p.toText
    | .broken codes =>
      -- The path ends with the name as it is shown.
      let start := p.toText.take (p.toText.length - codes.length)
      .error (codecFailure (.encode
        (Charset.Utf8.brokenFault (start.map Char.toNat ++ codes))))

end

end Session

end Cli

end DbmlRestore
