import DbmlRestore.Cli.Command

/-!
# Running the program

A run reads the settings, then the arguments, and then does what they ask for. It
ends with an exit status: zero, one if a command failed or found that something
would change, and two if the arguments are wrong. Variables of the environment may
ask for detailed reports, or for failures not to be reported but handed on to the
caller.
-/

namespace DbmlRestore

namespace Cli

/-- How a run ends. -/
inductive Ending where
  /-- With an exit status. -/
  | exit (status : Nat)
  /-- With a failure that is handed on to the caller. -/
  | raised (f : Failure)
deriving Repr, DecidableEq

/-- Whether the value of a variable switches something on. -/
def switchesOn (value : Text) : Bool :=
  ["1".toList, "true".toList, "yes".toList, "on".toList].contains
    (Text.lower (Text.trim value))

/-- The failure of a command that is run without a session. -/
def noSession : Failure := .cli
  { kind := .config
    message := "CLI context was not initialized before command execution".toList
    code := "CLI_CONTEXT_NOT_INITIALIZED".toList
    hint := some "This is an internal error - please report it".toList }

section

variable {m : Type → Type} [Monad m] [Host m]

/-- Whether a variable of the environment is set to switch something on. -/
def isOn (name : String) : m Bool := do
  return (← Host.environment? name.toList).any switchesOn

/-- The end of a run that failed. -/
def failed (verbose : Bool) (f : Failure) : m Ending := do
  let debugging ← isOn "DBMLKEEP_DEBUG"
  if (← isOn "DBMLKEEP_RERAISE") || debugging then return .raised f
  let verbose := verbose || (← isOn "DBMLKEEP_VERBOSE")
  Host.report (f.report verbose ++ ['\n'])
  return .exit 1

/-- Runs a command, for which a session is needed. -/
def Command.run (session : Option Session) (verbose : Bool) (c : Command) : m Ending := do
  match session with
  | none => failed verbose noSession
  | some s =>
    match ← (c.runIn s : Action m Nat).run with
    | .ok status => return .exit status
    | .error f => failed verbose f

/-- The end of a run whose arguments are no invocation. -/
def refused (r : Refusal) : m Ending := do
  match r.stop with
  | .help =>
    Host.print r.grammar.help
    return .exit 0
  | .version =>
    Host.print versionText
    return .exit 0
  | .misuse message =>
    Host.report (r.grammar.misuseReport message)
    return .exit 2

/-- The end of a run whose settings cannot be read. -/
def misconfigured (verbose : Bool) (f : ConfigFault) (path : Path) : m Ending :=
  match f.report path with
  | some e =>
    let hint := (Text.present? e.hint).getD "Fix or remove the configuration file".toList
    failed verbose (.cli { kind := .config, message := e.format, hint := some hint })
  | none => return .raised (.host (f.hostType?.getD []) f.message)

/-- Whether a log is kept: the level comes from the arguments, the environment or the
    settings. -/
def keepsLog (i : Invocation) (config : Config) : m Bool := do
  let fromEnvironment := Text.present? (← Host.environment? "DBMLKEEP_LOG_LEVEL".toList)
  let level := (Text.present? i.logLevel <|> fromEnvironment).getD config.defaults.logLevel
  return Text.lower level = "debug".toList

/-- Does what an invocation asks for. -/
def Invocation.run (i : Invocation) (root : Path) (config : Config) : m Ending := do
  let logging ← keepsLog i config
  match i.command with
  | some c => c.run (some ⟨root, config, logging⟩) i.verbose
  | none =>
    Host.print programGrammar.help
    return .exit 0

/-- Runs the program. -/
def run (args : List Text) : m Ending := do
  match Invocation.preliminary args with
  | .error r => refused r
  | .ok pre =>
    let cwd ← Host.startDirectory
    let given (key : String) : Option Path := (Text.present? (pre.value? key)).map .ofText
    let workspace := given "--workspace"
    let settings := given "--config"
    if (workspace.any Path.hasNull) || (settings.any Path.hasNull) then
      return .raised (Session.systemFailure ⟨.nullCharacter, cwd⟩)
    let root := (workspace.map (Path.resolve cwd)).getD cwd
    match ← Config.load cwd root (settings.map (Path.resolve cwd)) with
    -- The settings are refused before the arguments are, if both are wrong.
    | .error (f, path) => misconfigured (pre.has "--verbose") f path
    | .ok config =>
      match Invocation.read args with
      | .error r => refused r
      | .ok i => i.run root config

end

end Cli

end DbmlRestore
