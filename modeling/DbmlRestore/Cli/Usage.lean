import DbmlRestore.Cli.Grammar

/-!
# Usage and help

The usage line of a grammar, and its help: the usage, what the program is for, and
what each argument and each option means. The meanings start at one column for the
whole help (`helpColumn`); a name that is too long for it stands on a line
of its own.
-/

namespace DbmlRestore

namespace Cli

/-! ## Names -/

/-- Some choices in braces. -/
def choicesText (choices : List Text) : Text :=
  '\x7b' :: Text.joined [','] choices ++ ['\x7d']

/-- What stands after the name of an option. -/
def Effect.argumentText : Effect → Text
  | .store argument [] => ' ' :: argument
  | .store _ choices => ' ' :: choicesText choices
  | _ => []

/-- The names of the commands, as choices. -/
def commandsText (commands : List Slot) : Text :=
  choicesText (commands.map (·.name))

/-! ## Usage -/

/-- An option in the usage, in brackets unless it must be given. -/
def OptionSpec.usage (o : OptionSpec) : Text :=
  let text := o.names.head?.getD [] ++ o.effect.argumentText
  if o.required then text else '[' :: text ++ [']']

/-- The other arguments in the usage. -/
def Slots.usage : Slots → List Text
  | .words slots => slots.map (·.name)
  | .commands _ names => [commandsText names ++ " ...".toList]

/-- The usage line of a grammar. -/
def Grammar.usage (g : Grammar) : Text :=
  "usage: ".toList ++
    Text.joined [' '] (g.program :: g.options.map OptionSpec.usage ++ g.slots.usage) ++ ['\n']

/-! ## Help -/

/-- A line of the help: a name, how far it is indented, and what it means. -/
structure HelpLine where
  /-- The indentation. -/
  indent : Nat
  /-- The name. -/
  name : Text
  /-- The meaning. -/
  meaning : Text
deriving Repr, DecidableEq

/-- An option in the help, with all its names. -/
def OptionSpec.helpLine (o : OptionSpec) : HelpLine :=
  ⟨2, Text.joined ", ".toList (o.names.map (· ++ o.effect.argumentText)), o.help⟩

/-- The other arguments in the help. -/
def Slots.helpLines : Slots → List HelpLine
  | .words slots => slots.map fun s => ⟨2, s.name, s.help⟩
  | .commands slot names =>
    ⟨2, commandsText names, slot.help⟩ :: names.map fun s => ⟨4, s.name, s.help⟩

/-- The greatest column at which meanings start. -/
def maxHelpColumn : Nat := 24

/-- The column at which meanings start: two after the longest name. -/
def helpColumn (lines : List HelpLine) : Nat :=
  min ((lines.map fun l => l.indent + l.name.length).foldl max 0 + 2) maxHelpColumn

/-- A line of the help, or two if the name is too long. -/
def HelpLine.text (column : Nat) (l : HelpLine) : Text :=
  let start := List.replicate l.indent ' ' ++ l.name
  if start.length + 2 ≤ column then
    start ++ List.replicate (column - start.length) ' ' ++ l.meaning ++ ['\n']
  else start ++ '\n' :: List.replicate column ' ' ++ l.meaning ++ ['\n']

/-- A section of the help, after an empty line; nothing if it has no lines. -/
def helpSection (title : String) (column : Nat) (lines : List HelpLine) : Text :=
  if lines.isEmpty then []
  else '\n' :: title.toList ++ ":\n".toList ++ lines.flatMap (·.text column)

/-- The help of a grammar. -/
def Grammar.help (g : Grammar) : Text :=
  let slots := g.slots.helpLines
  let options := g.options.map OptionSpec.helpLine
  let column := helpColumn (slots ++ options)
  g.usage ++ (if g.description.isEmpty then [] else '\n' :: g.description ++ ['\n']) ++
    helpSection "positional arguments" column slots ++ helpSection "options" column options

/-- The report of arguments that are wrong. -/
def Grammar.misuseReport (g : Grammar) (message : Text) : Text :=
  g.usage ++ g.program ++ ": error: ".toList ++ message ++ ['\n']

end Cli

end DbmlRestore
