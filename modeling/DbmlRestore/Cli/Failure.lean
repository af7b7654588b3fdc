import DbmlRestore.Report

/-!
# Failures of a command

What makes a command fail is an error of the library, an error of the command
line with a code of its own (`CliError`), or an error of the host: a file that
cannot be read, a text that cannot be encoded, a value out of range. All are
reported the same way (`Failure.format`). An error of the host may be wrapped in
one of the command line that says what was being done (`Failure.wrap`); its type
and its message are then part of the context, which is shown on request.
-/

namespace DbmlRestore

namespace Cli

/-- The sorts of errors of the command line. -/
inductive ErrorKind where
  /-- Any error. -/
  | general
  /-- The settings or the set-up of the workspace are wrong. -/
  | config
  /-- An argument or an option is wrong. -/
  | validation
  /-- A command cannot go on. -/
  | runtime
  /-- A file is missing. -/
  | fileNotFound
deriving Repr, DecidableEq

/-- The code of a sort of error, unless an error has one of its own. -/
def ErrorKind.code : ErrorKind → Text
  | .general => "CLI_ERROR".toList
  | .config => "CLI_CONFIG_ERROR".toList
  | .validation => "CLI_VALIDATION_ERROR".toList
  | .runtime => "CLI_RUNTIME_ERROR".toList
  | .fileNotFound => "CLI_FILE_NOT_FOUND".toList

/-- The name under which a sort of error is shown. -/
def ErrorKind.typeName : ErrorKind → Text
  | .general => "CLIError".toList
  | .config => "CLIConfigError".toList
  | .validation => "CLIValidationError".toList
  | .runtime => "CLIRuntimeError".toList
  | .fileNotFound => "CLIFileNotFoundError".toList

/-- Details of an error, each under a key. -/
abbrev Context := List (Text × Text)

/-- Sets a detail, which keeps its place if it is there already. -/
def Context.insert (key value : Text) : Context → Context
  | [] => [(key, value)]
  | (k, v) :: context =>
    if k = key then (k, value) :: context else (k, v) :: Context.insert key value context

/-- An error of the command line. -/
structure CliError where
  /-- The sort of error. -/
  kind : ErrorKind
  /-- What is wrong. -/
  message : Text
  /-- The code. -/
  code : Text := kind.code
  /-- How to mend it. -/
  hint : Option Text := none
  /-- Details, shown on request. -/
  context : Context := []
deriving Repr, DecidableEq

/-- What makes a command fail. -/
inductive Failure where
  /-- An error of the library. -/
  | library (e : LibraryError)
  /-- An error of the command line. -/
  | cli (e : CliError)
  /-- An error of the host. -/
  | host (typeName message : Text)
deriving Repr, DecidableEq

namespace Failure

/-- The name of the type of a failure. -/
def typeName : Failure → Text
  | .library e => e.area.typeName
  | .cli e => e.kind.typeName
  | .host name _ => name

/-- What is wrong. -/
def message : Failure → Text
  | .library e => e.message
  | .cli e => e.message
  | .host _ message => message

/-- The error `e`, which says what was being done when `f` happened. -/
def wrap (f : Failure) (e : CliError) : CliError :=
  { e with
    context := (e.context.insert "original_exception".toList f.message).insert
      "original_type".toList f.typeName }

/-- The lines for an error of the command line. -/
def cliLines (verbose : Bool) (e : CliError) : List Text :=
  ["Error [".toList ++ e.code ++ "]: ".toList ++ e.message] ++
    ((Text.present? e.hint).map ("Hint: ".toList ++ ·)).toList ++
    (if verbose && !e.context.isEmpty then
      "\nContext:".toList :: e.context.map fun (k, v) => "  ".toList ++ k ++ ": ".toList ++ v
    else [])

/-- The report of a failure; a verbose one has the details. -/
def format (verbose : Bool) : Failure → Text
  | .cli e => Text.unlines (cliLines verbose e)
  | .library e => "Error: ".toList ++ e.format
  | .host name message => "Error: ".toList ++ name ++ ": ".toList ++ message

/-- What stands for the calls that led to a failure: they are not recorded. -/
def traceMark : Text := "<TRACEBACK>".toList

/-- The report of a failure at the end of a command; a verbose one has the details
    and the place of the calls that led there. -/
def report (verbose : Bool) (f : Failure) : Text :=
  if verbose then f.format true ++ "\n\nTraceback:\n".toList ++ traceMark else f.format false

end Failure

end Cli

end DbmlRestore
