import DbmlRestore.Text.Digit
import DbmlRestore.Text.Quoted

/-!
# Command line grammars

A grammar says which options and which other arguments a program takes. An option
has one or more names, and takes an argument or none. Arguments that are no options
fill the *slots* of the grammar in order, or name a command, to which all arguments
after it belong.

An argument is first given a *role* (`Grammar.roles`):

* an argument that starts with a dash is an option, by its name, by the start of a
  long name that fits no other, or by a short name with its argument attached;
* a dash alone, a negative number and an argument with a space are words, and so is
  all that follows two dashes;
* an unknown option is kept aside, with the words for which there is no slot.

Then the arguments are read from left to right (`Grammar.read`): words fill slots as
far as they go, and an option takes the word after it, if it needs one.
-/

namespace DbmlRestore

namespace Cli

/-! ## Grammars -/

/-- What an option does. -/
inductive Effect where
  /-- It stores its argument, which is shown as `argument` in the usage and is one
      of the choices, if there are any. -/
  | store (argument : Text) (choices : List Text)
  /-- It is there or not. -/
  | switch
  /-- It asks for help. -/
  | help
  /-- It asks for the version. -/
  | version
deriving Repr, DecidableEq

/-- An option. -/
structure OptionSpec where
  /-- Its names, each with its dashes. -/
  names : List Text
  /-- What it does. -/
  effect : Effect
  /-- What the help says about it. -/
  help : Text := []
  /-- Whether it must be given. -/
  required : Bool := false
deriving Repr, DecidableEq

/-- A slot for an argument, or a command, with what the help says about it. -/
structure Slot where
  /-- Its name. -/
  name : Text
  /-- What the help says about it. -/
  help : Text
deriving Repr, DecidableEq

/-- What the arguments are that are no options. -/
inductive Slots where
  /-- One argument for each slot. -/
  | words (slots : List Slot)
  /-- A command and its arguments; `slot` is the one for the command. -/
  | commands (slot : Slot) (commands : List Slot)
deriving Repr, DecidableEq

/-- The arguments that a program, or one of its commands, takes. -/
structure Grammar where
  /-- The program, or the program and the command. -/
  program : Text
  /-- What the help says about it. -/
  description : Text := []
  /-- The options. -/
  options : List OptionSpec
  /-- The other arguments. -/
  slots : Slots := .words []
deriving Repr, DecidableEq

namespace OptionSpec

/-- The name under which the argument of an option is kept. -/
def key (o : OptionSpec) : Text := o.names.getLast?.getD []

/-- The name of an option in a message. -/
def title (o : OptionSpec) : Text := Text.joined ['/'] o.names

/-- Whether an option takes an argument. -/
def takesArgument (o : OptionSpec) : Bool :=
  match o.effect with
  | .store _ _ => true
  | _ => false

end OptionSpec

/-! ## Roles -/

/-- An option as it is used. -/
structure Use where
  /-- The option. -/
  option : OptionSpec
  /-- The name that it is used by. -/
  name : Text
  /-- The argument attached to it. -/
  attached : Option Text := none
deriving Repr, DecidableEq

/-- The role of an argument. -/
inductive Role where
  /-- A word. -/
  | word
  /-- Two dashes, after which there are words only. -/
  | dashes
  /-- An option. -/
  | use (u : Use)
  /-- An option that the grammar does not know. -/
  | unknown
deriving Repr, DecidableEq

/-- Whether the role is that of an option. -/
def Role.isOption : Role → Bool
  | .use _ => true
  | .unknown => true
  | _ => false

namespace Grammar

/-- Two dashes. -/
def dashes : Text := ['-', '-']

/-- The names of the options, in order. -/
def optionNames (g : Grammar) : List (Text × OptionSpec) :=
  g.options.flatMap fun o => o.names.map (·, o)

/-- The option of a name. -/
def option? (g : Grammar) (name : Text) : Option OptionSpec :=
  (g.optionNames.find? (·.1 = name)).map (·.2)

/-- The argument after an equals sign, if there is one. -/
def afterEquals? (arg : Text) : Option Text :=
  if arg.contains '=' then some (Text.cutAt '=' arg).2 else none

/-- The uses that an argument may stand for: an option whose long name starts so, or
    one whose short name it starts with. -/
def candidates (g : Grammar) (arg : Text) : List Use :=
  match arg with
  | '-' :: '-' :: _ =>
    let start := (Text.cutAt '=' arg).1
    g.optionNames.filterMap fun (name, o) =>
      if start.isPrefixOf name then some ⟨o, name, afterEquals? arg⟩ else none
  | '-' :: c :: rest =>
    g.optionNames.filterMap fun (name, o) =>
      if name = ['-', c] then some ⟨o, name, some rest⟩
      else if arg.isPrefixOf name then some ⟨o, name, none⟩
      else none
  | _ => []

/-- Whether a text is a negative number: a dash, and digits of any script with a point
    before or between them at most. A line feed may follow. -/
def isNegativeNumber : Text → Bool
  | '-' :: t =>
    let t := if t.getLast? = some '\n' then t.dropLast else t
    match t.dropWhile Text.isDigit with
    | [] => !t.isEmpty
    | '.' :: fraction => !fraction.isEmpty && fraction.all Text.isDigit
    | _ => false
  | _ => false

/-- The message for an argument that may stand for several options. -/
def ambiguous (arg : Text) (uses : List Use) : Text :=
  "ambiguous option: ".toList ++ arg ++ " could match ".toList ++
    Text.joined ", ".toList (uses.map (·.name))

/-- The role of an argument that starts with a dash and is not the name of an option
    alone. -/
def dashRole (g : Grammar) (arg : Text) : Except Text Role :=
  let attached := do
    let a ← afterEquals? arg
    let o ← g.option? (Text.cutAt '=' arg).1
    return (⟨o, (Text.cutAt '=' arg).1, some a⟩ : Use)
  match attached with
  | some u => .ok (.use u)
  | none =>
    match g.candidates arg with
    | [u] => .ok (.use u)
    | [] => .ok (if isNegativeNumber arg || arg.contains ' ' then .word else .unknown)
    | uses => .error (ambiguous arg uses)

/-- The role of an argument before two dashes. -/
def role (g : Grammar) (arg : Text) : Except Text Role :=
  match arg with
  | '-' :: rest =>
    match g.option? arg with
    | some o => .ok (.use ⟨o, arg, none⟩)
    | none => if rest.isEmpty then .ok .word else g.dashRole arg
  | _ => .ok .word

/-- The arguments with their roles. -/
def roles (g : Grammar) : List Text → Except Text (List (Text × Role))
  | [] => .ok []
  | arg :: args =>
    if arg = dashes then .ok ((arg, .dashes) :: args.map (·, .word))
    else do
      let r ← g.role arg
      return (arg, r) :: (← g.roles args)

/-! ## Reading -/

/-- What has been read of the arguments. -/
structure Reading where
  /-- The arguments of options, the last one first. Two dashes stand for nothing. -/
  values : List (Text × Option Text) := []
  /-- The options without argument that are there. -/
  switches : List Text := []
  /-- The words in slots; a slot may be filled without a word. -/
  words : List (Option Text) := []
  /-- The command and its arguments. -/
  command : Option (Text × List Text) := none
  /-- The arguments that have no place. -/
  extras : List Text := []
deriving Repr, DecidableEq

/-- Why reading stopped. -/
inductive Stop where
  /-- Help was asked for. -/
  | help
  /-- The version was asked for. -/
  | version
  /-- The arguments are wrong. -/
  | misuse (message : Text)
deriving Repr, DecidableEq

/-- The message for an argument that is wrong. -/
def wrong (title message : Text) : Stop :=
  .misuse ("argument ".toList ++ title ++ ": ".toList ++ message)

/-- Refuses a value that is not one of the choices, if there are any. -/
def checkChoice (title value : Text) (choices : List Text) : Except Stop Unit :=
  if choices.isEmpty || choices.contains value then .ok ()
  else .error (wrong title ("invalid choice: ".toList ++ Text.quoted value ++
    " (choose from ".toList ++ Text.joined ", ".toList (choices.map Text.quoted) ++ ")".toList))

/-- An option with the argument that it is given. -/
structure Act where
  /-- The option. -/
  option : OptionSpec
  /-- Its argument. -/
  argument : Option Text
deriving Repr, DecidableEq

/-- What an option does to what has been read. -/
def Act.apply (a : Act) (r : Reading) : Except Stop Reading :=
  match a.option.effect with
  | .help => .error .help
  | .version => .error .version
  | .switch => .ok { r with switches := a.option.key :: r.switches }
  | .store _ choices => do
    let value := a.argument.filter (· ≠ dashes)
    match value with
    | some v => checkChoice a.option.title v choices
    | none => .ok ()
    return { r with values := (a.option.key, value) :: r.values }

/-- The options that one argument stands for, and the arguments after it. -/
structure Taken where
  /-- The options in order. -/
  acts : List Act
  /-- The arguments that follow. -/
  rest : List (Text × Role)

/-- Puts an option in front of others. -/
def Taken.cons (a : Act) (t : Taken) : Taken := { t with acts := a :: t.acts }

/-- Whether a name has one dash only. -/
def isShort : Text → Bool
  | '-' :: '-' :: _ => false
  | _ => true

/-- The options that a use stands for. Short options without argument may stand in
    one argument, one after the other. -/
def take (g : Grammar) : (fuel : Nat) → Use → List (Text × Role) → Except Stop Taken
  | 0, u, _ => .error (wrong u.option.title "expected one argument".toList)
  | fuel + 1, u, rest =>
    match u.attached with
    | none =>
      if u.option.takesArgument then
        match rest with
        | (w, .word) :: rest => .ok { acts := [⟨u.option, some w⟩], rest := rest }
        | _ => .error (wrong u.option.title "expected one argument".toList)
      else .ok { acts := [⟨u.option, none⟩], rest := rest }
    | some a =>
      let ignored := wrong u.option.title ("ignored explicit argument ".toList ++ Text.quoted a)
      if u.option.takesArgument then .ok { acts := [⟨u.option, some a⟩], rest := rest }
      else
        match a with
        | [] => .error ignored
        | c :: more =>
          -- What is attached to a short option without argument is another one.
          match if isShort u.name then g.option? ['-', c] else none with
          | none => .error ignored
          | some o =>
            let attached := if more.isEmpty then none else some more
            (g.take fuel ⟨o, ['-', c], attached⟩ rest).map (.cons ⟨u.option, none⟩)

/-- The words at the front of some arguments for at most `count` slots, and the
    arguments after them. A word takes the two dashes around it into its slot, and the
    first two dashes in a slot are dropped. A slot that is filled by nothing else has no
    word. -/
def takeWords :
    (count : Nat) → List (Text × Role) → List (Option Text) × List (Text × Role)
  | 0, args => ([], args)
  | count + 1, args =>
    match args.dropWhile (·.2 = .dashes) with
    | (w, .word) :: after =>
      let rest := after.dropWhile (·.2 = .dashes)
      let alone := rest.length + 1 = args.length
      let (ws, rest) := takeWords count rest
      ((if alone ∧ w = dashes then none else some w) :: ws, rest)
    | _ => ([], args)

/-- Fills slots from the front of some arguments, as far as words go. A command takes
    all arguments. -/
def fill (g : Grammar) (r : Reading) (args : List (Text × Role)) :
    Except Stop (Reading × List (Text × Role)) :=
  match g.slots with
  | .words slots =>
    let (ws, rest) := takeWords (slots.length - r.words.length) args
    .ok ({ r with words := r.words ++ ws }, rest)
  | .commands slot commands =>
    match r.command, args.dropWhile (·.2 = .dashes), args with
    -- Two dashes before the command are taken for its name.
    | none, (_, .word) :: _, (name, _) :: rest => do
      checkChoice slot.name name (commands.map (·.name))
      return ({ r with command := some (name, rest.map (·.1)) }, [])
    | _, _, _ => .ok (r, args)

/-- Reads arguments with their roles. -/
def readRoles (g : Grammar) :
    (fuel : Nat) → Reading → List (Text × Role) → Except Stop Reading
  | 0, r, _ => .ok r
  | fuel + 1, r, args =>
    match args with
    | (arg, .unknown) :: rest => g.readRoles fuel { r with extras := r.extras ++ [arg] } rest
    | (arg, .use u) :: rest => do
      let taken ← g.take (arg.length + 1) u rest
      let r ← taken.acts.foldlM (fun r a => a.apply r) r
      g.readRoles fuel r taken.rest
    | args => do
      let (r, rest) ← g.fill r args
      if rest.length < args.length then g.readRoles fuel r rest
      else
        -- No slot takes a word, so the words up to the next option have no place.
        let (words, rest) := rest.span (!·.2.isOption)
        let r := { r with extras := r.extras ++ words.map (·.1) }
        if rest.isEmpty then return r else g.readRoles fuel r rest

/-- The names of the arguments that must be given and are not. -/
def missing (g : Grammar) (r : Reading) : List Text :=
  let slots := match g.slots with
    | .words slots => (slots.drop r.words.length).map (·.name)
    | .commands _ _ => []
  let given := r.values.map (·.1)
  slots ++ (g.options.filter fun o => o.required && !given.contains o.key).map (·.title)

/-- Reads arguments. -/
def read (g : Grammar) (args : List Text) : Except Stop Reading := do
  let roles ← (g.roles args).mapError .misuse
  let r ← g.readRoles (2 * roles.length + 1) {} roles
  match g.missing r with
  | [] => return r
  | names =>
    .error (.misuse ("the following arguments are required: ".toList ++
      Text.joined ", ".toList names))

end Grammar

namespace Grammar.Reading

/-- The argument of an option, if it has one. -/
def value? (r : Reading) (key : String) : Option Text :=
  (r.values.find? (·.1 = key.toList)).bind (·.2)

/-- Whether an option is there. -/
def has (r : Reading) (key : String) : Bool := r.switches.contains key.toList

/-- The word in a slot, if there is one. -/
def word? (r : Reading) (slot : Nat) : Option Text := r.words[slot]?.join

/-- The word in a slot. -/
def word (r : Reading) (slot : Nat) : Text := (r.word? slot).getD []

end Grammar.Reading

end Cli

end DbmlRestore
