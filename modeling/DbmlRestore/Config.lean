import DbmlRestore.Charset
import DbmlRestore.Host
import DbmlRestore.Report
import DbmlRestore.Snapshot.Wire
import DbmlRestore.Text.LowerCase
import DbmlRestore.Toml.Parser

/-!
# Settings of a workspace

A workspace may have a settings file, which is TOML if its name ends so and JSON
otherwise. What counts is its table `defaults`:

* `encoding`: the charset of schema files and snapshots;
* `suffixes`: the suffixes of schema files, a text or a list;
* `snapshot_suffix`: what is added to the name of a schema file for its snapshot;
* `log_level`: how much is logged.

A setting that is not given has a default (`Defaults`). Settings that are texts may
be given as any value, which is then shown as a text, unless that takes too many digits.
-/

namespace DbmlRestore

/-- The settings that count. -/
structure Defaults where
  /-- The charset of schema files and snapshots. -/
  encoding : Wording := .text "utf-8".toList
  /-- The suffixes of schema files. -/
  suffixes : List Wording := [.text ".dbml".toList]
  /-- What is added to the name of a schema file for its snapshot. -/
  snapshotSuffix : Wording := .text ".keep.json".toList
  /-- How much is logged. -/
  logLevel : Text := "info".toList
deriving Repr, DecidableEq

/-- The settings of a workspace. -/
structure Config where
  /-- The directory of the workspace. -/
  root : Path
  /-- The settings that count. -/
  defaults : Defaults := {}
  /-- The settings file. -/
  source : Option Path := none
  /-- All that the settings file holds. -/
  raw : Value.Members := []
deriving Repr

/-- Why settings cannot be read. -/
inductive ConfigFault where
  /-- The settings file asked for is not there. -/
  | missing
  /-- The settings file cannot be read, or is no text. -/
  | unreadable (message : Text)
  /-- The settings file is not TOML. -/
  | notToml (fault : Toml.Fault) (place : Option Position)
  /-- The settings file is not JSON. -/
  | notJson (fault : Json.Fault) (position : Position)
  /-- What the settings file holds is no object. -/
  | noObject
  /-- The settings that count are no table. -/
  | noTable
  /-- The suffixes are neither a text nor a list. -/
  | suffixes
  /-- The level of logging is not known. -/
  | logLevel (name : Text)
  /-- An integer has too many digits to be read. -/
  | digits (count : Nat)
  /-- A setting has an integer with too many digits to be shown. -/
  | longInteger
  /-- The workspace, or the place of a settings file, cannot be asked for. -/
  | system (e : SystemError)
deriving Repr, DecidableEq

namespace Config

/-- The names of settings files, the first one that is there being taken. -/
def fileNames : List Text := ["dbmlkeep.toml".toList, ".dbmlkeeprc".toList]

/-- The levels of logging. -/
def logLevels : List Text :=
  ["debug".toList, "info".toList, "warn".toList, "warning".toList, "error".toList]

end Config

namespace ConfigFault

/-- What is wrong. -/
def message : ConfigFault → Text
  | .missing => "Configuration file not found".toList
  | .unreadable m => "Cannot read configuration: ".toList ++ m
  | .notToml fault place => "Invalid TOML configuration: ".toList ++ fault.messageAt place
  | .notJson fault _ => "Invalid JSON configuration: ".toList ++ fault.message
  | .noObject => "Configuration root must be an object".toList
  | .noTable => "[defaults] must be a table".toList
  | .suffixes => "'suffixes' must be a string or a list of strings".toList
  | .logLevel name => "Unknown log level '".toList ++ name ++ "'".toList
  | .digits count => digitsMessage count
  | .longInteger =>
    "Exceeds the limit (4300 digits) for integer string conversion; ".toList ++
      "use sys.set_int_max_str_digits() to increase the limit".toList
  | .system e => e.message

/-- How to mend it. -/
def hint : ConfigFault → Option Text
  | .logLevel _ => some ("Use one of: ".toList ++ Text.joined ", ".toList Config.logLevels)
  | _ => none

/-- Where it is wrong, in a settings file. -/
def location (path : Path) : ConfigFault → Location
  | .notJson _ position => ⟨some path.toText, some position.line, some position.column⟩
  | _ => { path := some path.toText }

/-- The name under which a fault is shown that is no error of the library. -/
def hostType? : ConfigFault → Option Text
  | .digits _ => some "ValueError".toList
  | .longInteger => some "ValueError".toList
  | .system e => some e.fault.typeName
  | _ => none

/-- The error for a settings file, if it is one of the library. -/
def report (path : Path) (f : ConfigFault) : Option LibraryError :=
  if f.hostType?.isSome then none
  else some
    { area := .config, message := f.message, location := f.location path, hint := f.hint }

end ConfigFault

namespace Config

/-! ## Reading -/

/-- A value as a wording, unless an integer in it is too long. -/
def wordingOf (v : Value) : Except ConfigFault Wording :=
  if v.isTooLong then .error .longInteger else .ok v.wording

/-- The wording of a setting, or its default if it is not given. -/
def settingOf (ms : Value.Members) (key : String) (default : Wording) :
    Except ConfigFault Wording :=
  match ms.find? key.toList with
  | some v => if v.isGiven then wordingOf v else .ok default
  | none => .ok default

/-- The suffixes of schema files. -/
def suffixesOf (ms : Value.Members) : Except ConfigFault (List Wording) :=
  match ms.find? "suffixes".toList with
  | none => .ok ({} : Defaults).suffixes
  | some .null => .ok ({} : Defaults).suffixes
  | some (.array vs) => vs.mapM wordingOf
  | some (.string w) => .ok [w]
  | some _ => .error .suffixes

/-- The table of the settings that count; it is empty if it is not given. -/
def sectionOf (raw : Value.Members) : Except ConfigFault Value.Members :=
  match raw.find? "defaults".toList with
  | none => .ok []
  | some (.table ms) => .ok ms
  | some v => if v.isGiven then .error .noTable else .ok []

/-- The settings that count, of all that a settings file holds. -/
def defaultsOf (raw : Value.Members) : Except ConfigFault Defaults := do
  let ms ← sectionOf raw
  let standard : Defaults := {}
  let encoding ← settingOf ms "encoding" standard.encoding
  let suffixes ← suffixesOf ms
  let snapshotSuffix ← settingOf ms "snapshot_suffix" standard.snapshotSuffix
  let level ← settingOf ms "log_level" (.text standard.logLevel)
  let level := Text.lower level.visible
  if logLevels.contains level then return ⟨encoding, suffixes, snapshotSuffix, level⟩
  else .error (.logLevel level)

/-- A text in which every line ends with a line feed alone. -/
def plainLineEnds (t : Text) : Text :=
  Text.replace ['\r'] ['\n'] (Text.replace ['\r', '\n'] ['\n'] t)

/-- All that a settings file in TOML holds. -/
def ofToml (t : Text) : Except ConfigFault Value.Members :=
  match Toml.parse t with
  | .ok ms => .ok ms
  | .error (.notToml fault place) => .error (.notToml fault place)
  | .error (.digits n) => .error (.digits n)

/-- All that a settings file in JSON holds. -/
def ofJson (t : Text) : Except ConfigFault Value.Members :=
  match Json.parse (plainLineEnds t) with
  | .ok (.object ms) => .ok (Value.ofMembers ms)
  | .ok _ => .error .noObject
  | .error (.notJson fault position) => .error (.notJson fault position)
  | .error (.digits n) => .error (.digits n)

/-- The settings of the workspace `root` from the content of the settings file
    `path`. -/
def ofContent (root path : Path) (content : Charset.Bytes) : Except ConfigFault Config := do
  let text ← (Charset.decode .utf8 content).mapError fun f => .unreadable f.message
  let raw ← if path.suffix = ".toml".toList then ofToml text else ofJson text
  return ⟨root, ← defaultsOf raw, some path, raw⟩

/-! ## Finding -/

section Finding

variable {m : Type → Type} [Monad m] [Host m]

/-- The first path of a list that leads to anything. -/
def firstThere : List Path → m (Except SystemError (Option Path))
  | [] => return .ok none
  | p :: ps => do
    match ← Host.isThere p with
    | .error e => return .error e
    | .ok true => return .ok (some p)
    | .ok false => firstThere ps

/-- The settings file of the workspace `root`, or the one asked for, if it is
    there. -/
def locate (root : Path) (asked : Option Path) : m (Except SystemError (Option Path)) :=
  firstThere (asked.elim (fileNames.map root.child) ([·]))

/-- The settings from a settings file, or why they cannot be read. -/
def readFrom (root path : Path) : m (Except (ConfigFault × Path) Config) := do
  match ← Host.read path with
  | .error e => return .error (.unreadable e.message, path)
  | .ok content => return (ofContent root path content).mapError (·, path)

/-- The settings of the workspace `root`, which is seen from the directory `cwd`. A
    fault comes with the settings file that has it. -/
def load (cwd root : Path) (asked : Option Path) : m (Except (ConfigFault × Path) Config) := do
  if root.hasNull then return .error (.system ⟨.nullCharacter, root⟩, root)
  let root := Path.resolve cwd root
  match ← locate root asked with
  | .error e => return .error (.system e, e.path)
  | .ok (some path) => readFrom root path
  | .ok none =>
    match asked with
    | some path => return .error (.missing, path)
    | none => return .ok { root := root }

end Finding

/-! ## Paths -/

/-- The name of the snapshot of a schema file. -/
def snapshotName (c : Config) (schemaFile : Path) : Wording :=
  .ofCodes (schemaFile.name.map Char.toNat ++ c.defaults.snapshotSuffix.codes)

/-- The path of the snapshot of a schema file, with the name that is shown. -/
def snapshotPath (c : Config) (schemaFile : Path) : Except NameFault Path :=
  let name := c.snapshotName schemaFile
  match schemaFile.withName name.visible with
  | .error (.invalidName _) => .error (.invalidName name)
  | r => r

/-- Whether a path has the suffix of a schema file. -/
def accepts (c : Config) (p : Path) : Bool :=
  c.defaults.suffixes.contains (.text p.suffix)

end Config

end DbmlRestore
