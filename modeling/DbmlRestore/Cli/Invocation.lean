import DbmlRestore.Cli.Usage

/-!
# Invocations

The arguments of this program: its options, its commands, and what each command
takes. An invocation is what the arguments ask for (`Invocation.read`).

The settings must be known before the arguments are read in full, so a first
reading looks for the few options that say where the settings are
(`Invocation.preliminary`) and passes over all else.
-/

namespace DbmlRestore

namespace Cli

/-! ## Grammars -/

/-- The name of the program. -/
def programName : Text := "dbmlkeep".toList

/-- The version of the program. -/
def versionText : Text := "dbmlkeep 0.1.0\n".toList

/-- The option for help. -/
def helpOption : OptionSpec where
  names := ["-h".toList, "--help".toList]
  effect := .help
  help := "show this help message and exit".toList

/-- The option for the settings file. -/
def configOption : OptionSpec where
  names := ["--config".toList]
  effect := .store "CONFIG".toList []
  help := "Path to a dbmlkeep.toml configuration file".toList

/-- The option for the directory of the workspace. -/
def workspaceOption : OptionSpec where
  names := ["--workspace".toList]
  effect := .store "WORKSPACE".toList []
  help := "Workspace root directory (defaults to current working directory)".toList

/-- The option for detailed reports. -/
def verboseOption : OptionSpec where
  names := ["--verbose".toList]
  effect := .switch
  help := "Print full tracebacks and detailed CLI errors (or set DBMLKEEP_VERBOSE=1)".toList

/-- The option for the version. -/
def versionOption : OptionSpec where
  names := ["--version".toList]
  effect := .version
  help := "show program's version number and exit".toList

/-- The option for the level of logging. -/
def logLevelOption : OptionSpec where
  names := ["--log-level".toList]
  effect := .store "LOG_LEVEL".toList
    ["debug".toList, "info".toList, "warn".toList, "error".toList]
  help := "Set logging level (or set DBMLKEEP_LOG_LEVEL)".toList

/-- The option for the output file. -/
def outputOption (help : String) : OptionSpec where
  names := ["-o".toList, "--output".toList]
  effect := .store "OUTPUT".toList []
  help := help.toList

/-- The option for the snapshot. -/
def snapshotOption : OptionSpec where
  names := ["--snapshot".toList]
  effect := .store "SNAPSHOT".toList []
  help := "Snapshot written by 'extract'".toList
  required := true

/-- The commands. -/
inductive CommandName where
  /-- Captures a snapshot. -/
  | extract
  /-- Shows the blocks of a schema. -/
  | blocks
  /-- Restores the order of tables from a snapshot. -/
  | reorder
  /-- Restores comments from a snapshot. -/
  | merge
  /-- Restores order and comments from the hand-written schema. -/
  | restore
deriving Repr, DecidableEq

namespace CommandName

/-- All commands, in the order in which they are listed. -/
def all : List CommandName := [.extract, .blocks, .reorder, .merge, .restore]

/-- The name of a command. -/
def name : CommandName → Text
  | .extract => "extract".toList
  | .blocks => "blocks".toList
  | .reorder => "reorder".toList
  | .merge => "merge".toList
  | .restore => "restore".toList

/-- What the help says about a command. -/
def help : CommandName → Text
  | .extract => "Capture table order and comments from an original schema".toList
  | .blocks => "Show the top-level blocks of a schema file".toList
  | .reorder => "Restore original table order in a regenerated schema".toList
  | .merge => "Re-inject captured comments into a regenerated schema".toList
  | .restore => "Reorder and re-comment a regenerated schema from its original".toList

/-- The command of a name. -/
def ofName? (name : Text) : Option CommandName := all.find? (·.name = name)

/-- A slot for a file. -/
def slot (name help : String) : Slot := ⟨name.toList, help.toList⟩

/-- The options and slots of a command. -/
def arguments : CommandName → List OptionSpec × List Slot
  | .extract =>
    ([outputOption
        "Snapshot destination; 'auto' writes it next to the source (default: stdout)",
      { names := ["--format".toList]
        effect := .store "FORMAT".toList ["json".toList, "table".toList]
        help := "Emit the snapshot as JSON or render it as tables".toList }],
      [slot "source" "Original schema file"])
  | .blocks =>
    ([{ names := ["--include-other".toList]
        effect := .switch
        help := "Also list standalone 'other' lines".toList }],
      [slot "file" "Schema file to partition"])
  | .reorder =>
    ([snapshotOption, outputOption "Output file (default: stdout)"],
      [slot "regenerated" "Regenerated schema file"])
  | .merge =>
    ([snapshotOption, outputOption "Output file (default: stdout)"],
      [slot "regenerated" "Regenerated schema file"])
  | .restore =>
    ([outputOption "Output file (default: stdout)",
      { names := ["--check".toList]
        effect := .switch
        help := "Exit with status 1 if the regenerated file would change".toList }],
      [slot "original" "Original schema file", slot "regenerated" "Regenerated schema file"])

/-- The grammar of a command. -/
def grammar (c : CommandName) : Grammar where
  program := programName ++ ' ' :: c.name
  options := helpOption :: c.arguments.1
  slots := .words c.arguments.2

end CommandName

/-- The grammar of the first reading. -/
def preliminaryGrammar : Grammar where
  program := programName
  options := [configOption, workspaceOption, verboseOption]

/-- The grammar of the program. -/
def programGrammar : Grammar where
  program := programName
  description := "Preserve comments and table order when DBML schemas are regenerated".toList
  options := [helpOption, versionOption, configOption, verboseOption, workspaceOption,
    logLevelOption]
  slots := .commands ⟨"command".toList, "Available commands".toList⟩
    (CommandName.all.map fun c => ⟨c.name, c.help⟩)

/-! ## Invocations -/

/-- A command with its arguments. -/
inductive Command where
  /-- Captures the snapshot of `source`; `asTables` shows it as tables. -/
  | extract (source : Text) (output : Option Text) (asTables : Bool)
  /-- Shows the blocks of `file`; `includeOther` shows also those of no kind. -/
  | blocks (file : Text) (includeOther : Bool)
  /-- Restores the order of the tables of `regenerated` from a snapshot, which may be
      given as nothing. -/
  | reorder (regenerated : Text) (snapshot output : Option Text)
  /-- Restores the comments of `regenerated` from a snapshot, which may be given as
      nothing. -/
  | merge (regenerated : Text) (snapshot output : Option Text)
  /-- Restores order and comments of `regenerated` from `source`; `check` tells only
      whether it would change. The slot of `regenerated` may have no word, if two dashes
      stand in it. -/
  | restore (source : Text) (regenerated output : Option Text) (check : Bool)
deriving Repr, DecidableEq

/-- What the arguments ask for. -/
structure Invocation where
  /-- Whether reports are detailed. -/
  verbose : Bool
  /-- The level of logging. -/
  logLevel : Option Text
  /-- The command, if there is one. -/
  command : Option Command
deriving Repr, DecidableEq

/-- Why arguments are no invocation: the grammar that they do not fit, and why
    reading stopped. -/
structure Refusal where
  /-- The grammar. -/
  grammar : Grammar
  /-- Why reading stopped. -/
  stop : Grammar.Stop
deriving Repr, DecidableEq

/-- The command that the arguments of a command ask for. -/
def CommandName.command (c : CommandName) (r : Grammar.Reading) : Command :=
  let output := r.value? "--output"
  let snapshot := r.value? "--snapshot"
  match c with
  | .extract => .extract (r.word 0) output (r.value? "--format" == some "table".toList)
  | .blocks => .blocks (r.word 0) (r.has "--include-other")
  | .reorder => .reorder (r.word 0) snapshot output
  | .merge => .merge (r.word 0) snapshot output
  | .restore => .restore (r.word 0) (r.word? 1) output (r.has "--check")

namespace Invocation

/-- Reads arguments by a grammar. -/
def readBy (g : Grammar) (args : List Text) : Except Refusal Grammar.Reading :=
  (g.read args).mapError (⟨g, ·⟩)

/-- The first reading of the arguments. -/
def preliminary (args : List Text) : Except Refusal Grammar.Reading :=
  readBy preliminaryGrammar args

/-- The command of a reading, and the arguments that have no place in it. -/
def commandOf (r : Grammar.Reading) : Except Refusal (Option Command × List Text) :=
  match r.command with
  | none => .ok (none, [])
  | some (name, args) =>
    match CommandName.ofName? name with
    | none => .ok (none, [])
    | some c => do
      let sub ← readBy c.grammar args
      return (some (c.command sub), sub.extras)

/-- What the arguments ask for. -/
def read (args : List Text) : Except Refusal Invocation := do
  let r ← readBy programGrammar args
  let (command, extras) ← commandOf r
  match r.extras ++ extras with
  | [] => return ⟨r.has "--verbose", r.value? "--log-level", command⟩
  | extras =>
    .error ⟨programGrammar,
      .misuse ("unrecognized arguments: ".toList ++ Text.joined [' '] extras)⟩

end Invocation

end Cli

end DbmlRestore
