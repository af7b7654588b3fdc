import DbmlRestore.Cli.Literal.Fields

/-!
# The grammar of expressions

The rules by which tokens are an expression, and the mistakes that have a message of their
own. The rules from `Rule.disjunction` to `Rule.atom` are those of the operators, from the
loosest to the tightest one.
-/

namespace DbmlRestore

namespace Cli

namespace Literal

/-! ## What expressions are called -/

/-- What an expression is called in a message. -/
def Tree.description : Tree → Text
  | .leaf (.name t) =>
    if ["None", "True", "False"].any (·.toList = t) then t else "name".toList
  | .leaf (.sign _) => "ellipsis".toList
  | .leaf _ => "literal".toList
  | .node form parts => match form with
    | .strings =>
      let formatted := parts.any fun
        | .leaf (.string letters _) => letters.contains 'f'
        | _ => false
      if formatted then "f-string expression".toList else "literal".toList
    | .tuple => "tuple".toList
    | .set => "set display".toList
    | .dict => "dict literal".toList
    | .starred => "starred".toList
    | .membership => "comparison".toList
    | .comparison => "comparison".toList
    | .conditional => "conditional expression".toList
    | .named => "named expression".toList
    | .attribute => "attribute".toList
    | .call => "function call".toList
    | .function => "lambda".toList
    | .generator => "generator expression".toList
    | .setLoop => "set comprehension".toList
    | .dictLoop => "dict comprehension".toList
    | .yielded => "yield expression".toList
    | .awaited => "await expression".toList
    | _ => "expression".toList

/-- Whether an expression is the name of a call that used to be written without
    brackets. -/
def Tree.legacyName? : Tree → Option Text
  | .leaf (.name t) => if t = "print".toList ∨ t = "exec".toList then some t else none
  | _ => none

/-- The first part of an expression that cannot be given a value by a loop. -/
def Tree.badTarget? : Tree → Option Tree
  | .leaf (.name t) => if Token.isName (.name t) then none else some (.leaf (.name t))
  | .leaf t => some (.leaf t)
  | .node .tuple parts => parts.attach.findSome? fun ⟨t, _⟩ => t.badTarget?
  | .node .starred [t] => t.badTarget?
  | .node .membership (t :: _) => t.badTarget?
  | .node .comparison _ => none
  | .node .attribute _ => none
  | t => some t

/-! ## Rules -/

/-- The rules. -/
inductive Rule where
  /-- The whole text. -/
  | whole
  /-- Expressions between commas. -/
  | expressions
  /-- An expression. -/
  | expression
  /-- An expression, without a look for mistakes at its start. -/
  | freeExpression
  /-- A value that is handed out. -/
  | yielded
  /-- Expressions between commas, each of which may have a star. -/
  | starExpressions
  /-- An expression that may have a star. -/
  | starExpression
  /-- Values in brackets. -/
  | starNamedExpressions
  /-- A value in brackets, which may have a star. -/
  | starNamedExpression
  /-- A value that is given a name. -/
  | assignment
  /-- An expression that may be given a name. -/
  | named
  /-- A value that is given a name in a way that is not allowed. -/
  | misassignment
  /-- The operator `or`. -/
  | disjunction
  /-- The operator `and`. -/
  | conjunction
  /-- The operator `not`. -/
  | inversion
  /-- Comparisons. -/
  | comparison
  /-- An operator of comparison, with the operand after it. -/
  | comparePair
  /-- The operator `|`. -/
  | bitOr
  /-- The operator `^`. -/
  | bitXor
  /-- The operator `&`. -/
  | bitAnd
  /-- The operators that shift. -/
  | shift
  /-- Sums and differences. -/
  | sum
  /-- Products and quotients. -/
  | term
  /-- Signs before a value. -/
  | factor
  /-- Powers. -/
  | power
  /-- A value that may be waited for. -/
  | awaited
  /-- A value with its parts and calls. -/
  | primary
  /-- A value that is no operation. -/
  | atom
  /-- Strings in a row. -/
  | strings
  /-- An expression in brackets. -/
  | group
  /-- A tuple in brackets. -/
  | tuple
  /-- A set. -/
  | set
  /-- A dict. -/
  | dict
  /-- An entry of a dict. -/
  | pairs
  /-- A pair of a key and a value. -/
  | pair
  /-- Entries of a dict of which the first or the last one is wrong. -/
  | mispairs
  /-- An entry of a dict that is wrong. -/
  | mispair
  /-- A set from a loop. -/
  | setLoop
  /-- A dict from a loop. -/
  | dictLoop
  /-- Values from a loop, in brackets. -/
  | generator
  /-- Values from a loop that are wrong. -/
  | misloop
  /-- Loops. -/
  | clauses
  /-- One loop. -/
  | clause
  /-- What gets the values of a loop. -/
  | targets
  /-- One of the things that get the values of a loop. -/
  | target
  /-- One of these things without a star. -/
  | plainTarget
  /-- A name or names in brackets that get the values of a loop. -/
  | targetAtom
  /-- A value whose part gets the values of a loop. -/
  | targetStem
  /-- The arguments of a call. -/
  | arguments
  /-- The arguments of a call, before its closing bracket is seen. -/
  | callArguments
  /-- The arguments of a call from the first one with a name on. -/
  | keywordArguments
  /-- An argument with a star. -/
  | starredArgument
  /-- An argument with a name or with a star. -/
  | keywordOrStarred
  /-- An argument with a name or with two stars. -/
  | keywordOrUnpacked
  /-- An argument whose name is wrong. -/
  | miskeyword
  /-- Arguments that are wrong. -/
  | misarguments
  /-- A function without a name. -/
  | function
  /-- The parameters of a function. -/
  | parameters
  /-- Parameters of a function that are wrong. -/
  | misparameters
  /-- Parameters before a slash. -/
  | slash
  /-- Parameters before a slash, the last ones with defaults. -/
  | slashWithDefault
  /-- Parameters from a star on. -/
  | starParameters
  /-- The parameter with two stars. -/
  | unpackedParameter
  /-- A parameter without a default. -/
  | parameter
  /-- A parameter with a default. -/
  | parameterWithDefault
  /-- A parameter with or without a default. -/
  | parameterMaybeDefault
  /-- A default. -/
  | default
deriving DecidableEq, Hashable

namespace Rule

open Pattern

/-- A name. -/
def name : Pattern Rule := token Token.isName

/-- A token that is the given keyword or sign, as a tree. -/
def leaf (w : String) : Pattern Rule := token (Token.isWord w)

/-- A mistake that always has the same message and is found even where mistakes are not
    looked for. -/
def plainMistake (message : String) (p : List (Pattern Rule)) : Pattern Rule :=
  refuse (seq p) fun _ _ => some message.toList

/-- A mistake that always has the same message. -/
def mistake (message : String) (p : List (Pattern Rule)) : Pattern Rule :=
  strictly (plainMistake message p)

/-- The message for an equals sign that should be another sign. -/
def singleEquals : String :=
  "invalid syntax. Maybe you meant \x27==\x27 or \x27:=\x27 instead of \x27=\x27?"

/-- The message for a loop among arguments. -/
def bareLoop : String := "Generator expression must be parenthesized"

/-- The message for a list of values before a loop. -/
def bareValues : String := "did you forget parentheses around the comprehension target?"

/-- Two expressions without a comma between them, inside brackets. -/
def missingComma : Pattern Rule :=
  strictly (refuse
    (seq [notAhead (choice [seq [name, token Token.isString], token Token.isSoft]),
      rule disjunction, plainly (rule freeExpression)])
    fun ts level =>
      if level = 0 ∨ (ts.head?.bind Tree.legacyName?).isSome then none
      else some "invalid syntax. Perhaps you forgot a comma?".toList)

/-- A call without brackets. -/
def bareCall : Pattern Rule :=
  strictly (refuse (seq [name, notAhead (word "("), rule starExpressions]) fun ts _ =>
    (ts.head?.bind Tree.legacyName?).map fun t =>
      "Missing parentheses in call to \x27".toList ++ t ++ "\x27. Did you mean ".toList ++ t ++
        "(...)?".toList)

/-- A mistake whose message tells what its first tree is. -/
def described (before after : String) (p : List (Pattern Rule)) : Pattern Rule :=
  strictly (refuse (seq p) fun ts _ =>
    ts.head?.map fun t => before.toList ++ t.description ++ after.toList)

/-- Operators of one kind with operands of the next kind, from the left. -/
def leftward (form : Form) (ws : List String) (r : Rule) : Pattern Rule :=
  attach (seq [rule r, many (node form (seq [words ws, rule r]))])

/-- An expression, or a value with a name. -/
def unnamed : Pattern Rule :=
  choice [rule assignment, seq [rule expression, notAhead (word ":=")]]

/-- Loops, with their conditions. -/
def loop (start : List (Pattern Rule)) : Pattern Rule :=
  seq (start ++ [word "for", rule targets, word "in", rule disjunction,
    many (seq [word "if", rule disjunction])])

/-- The arguments before a mistake: how many have no name, and whether values with two stars
    are among them. -/
def argumentCounts (ts : List Tree) : Nat × Bool :=
  match ts with
  | .node .arguments parts :: _ =>
    parts.foldl (fun (count, unpacked) t => match t with
      | .node .keyword _ => (count, unpacked)
      | .node .unpacked _ => (count, true)
      | _ => (count + 1, unpacked)) (0, false)
  | _ => (0, false)

/-- A parameter of a function, with what follows it. -/
def closed (p : List (Pattern Rule)) : Pattern Rule :=
  choice [seq (p ++ [word ","]), seq (p ++ [ahead (word ":")])]

/-- What an expression in brackets with two stars or one may be mistaken for. -/
def misgroup : List (Pattern Rule) :=
  [mistake "cannot use starred expression here" [word "(", rule starredArgument, word ")"],
    mistake "cannot use double starred expression here"
      [word "(", word "**", rule expression, word ")"]]

/-- The mistakes in the value of a pair. -/
def misvalue : List (Pattern Rule) :=
  [plainMistake "cannot use a starred expression in a dictionary value"
      [rule expression, word ":", word "*", rule bitOr],
    plainMistake "expression expected after dictionary key and \x27:\x27"
      [rule expression, word ":", ahead (words ["\x7d", ","])]]

/-- The pattern of a rule; `inner` tells what is wrong with an expression in a field of a
    string. -/
def pattern (inner : Text → Option Text) : Rule → Pattern Rule
  | whole => seq [rule expressions, stop]
  | expressions => choice
    [node .tuple (seq [rule expression, repeated (seq [word ",", rule expression]),
        opt (word ",")]),
      node .tuple (seq [rule expression, word ","]),
      rule expression]
  | expression => choice
    [missingComma,
      mistake "expected \x27else\x27 after \x27if\x27 expression"
        [rule disjunction, word "if", rule disjunction, notAhead (words ["else", ":"])],
      bareCall, rule freeExpression]
  | freeExpression => choice
    [node .conditional (seq [rule disjunction, word "if", rule disjunction, word "else",
        rule expression]),
      rule disjunction, rule function]
  | yielded => node .yielded (choice
    [seq [word "yield", word "from", rule expression],
      seq [word "yield", opt (rule starExpressions)]])
  | starExpressions => choice
    [node .tuple (seq [rule starExpression, repeated (seq [word ",", rule starExpression]),
        opt (word ",")]),
      node .tuple (seq [rule starExpression, word ","]),
      rule starExpression]
  | starExpression => choice [node .starred (seq [word "*", rule bitOr]), rule expression]
  | starNamedExpressions => seq [commas (rule starNamedExpression), opt (word ",")]
  | starNamedExpression => choice [node .starred (seq [word "*", rule bitOr]), rule named]
  | assignment => node .named (seq [name, word ":=", rule expression])
  | named => choice
    [rule assignment, rule misassignment, seq [rule expression, notAhead (word ":=")]]
  | misassignment => choice
    [described "cannot use assignment expressions with " ""
        [rule expression, word ":=", rule expression],
      mistake singleEquals [name, word "=", rule bitOr, notAhead (words ["=", ":="])],
      described "cannot assign to " " here. Maybe you meant \x27==\x27 instead of \x27=\x27?"
        [notAhead (choice [rule tuple, rule generator, words ["True", "None", "False"]]),
          rule bitOr, word "=", rule bitOr, notAhead (words ["=", ":="])]]
  | disjunction => choice
    [node .operation (seq [rule conjunction, repeated (seq [word "or", rule conjunction])]),
      rule conjunction]
  | conjunction => choice
    [node .operation (seq [rule inversion, repeated (seq [word "and", rule inversion])]),
      rule inversion]
  | inversion => choice
    [node .operation (seq [word "not", rule inversion]), rule comparison]
  | comparison => choice
    [node .membership (seq [rule bitOr, word "in", rule bitOr, many (rule comparePair)]),
      node .comparison (seq [rule bitOr, repeated (rule comparePair)]),
      rule bitOr]
  | comparePair => choice
    [seq [words ["==", "!=", "<=", "<", ">=", ">"], rule bitOr],
      seq [word "not", word "in", rule bitOr], seq [word "in", rule bitOr],
      seq [word "is", word "not", rule bitOr], seq [word "is", rule bitOr]]
  | bitOr => leftward .operation ["|"] bitXor
  | bitXor => leftward .operation ["^"] bitAnd
  | bitAnd => leftward .operation ["&"] shift
  | shift => leftward .operation ["<<", ">>"] sum
  | sum => leftward .sum ["+", "-"] term
  | term => leftward .operation ["*", "/", "//", "%", "@"] factor
  | factor => choice
    [node .sign (seq [words ["+", "-"], rule factor]),
      node .operation (seq [word "~", rule factor]), rule power]
  | power => choice
    [node .operation (seq [rule awaited, word "**", rule factor]), rule awaited]
  | awaited => choice [node .awaited (seq [word "await", rule primary]), rule primary]
  | primary => attach (seq [rule atom, many (choice
    [node .attribute (seq [word ".", name]), node .call (rule generator),
      node .call (seq [word "(", opt (rule arguments), word ")"])])])
  | atom => choice
    [name, leaf "True", leaf "False", leaf "None", rule strings,
      check (token Token.isNumber) fun
        | [.leaf (.number _ (some count))] => some (digitsMessage count ++
            (" - Consider hexadecimal for huge integer literals to avoid decimal " ++
              "conversion limits.").toList)
        | _ => none,
      seq [ahead (word "("), choice [rule tuple, rule group, rule generator]],
      seq [ahead (word "\x7b"), choice [rule dict, rule set, rule dictLoop, rule setLoop]],
      leaf "..."]
  | strings => node .strings (check (repeated (token Token.isString))
    (stringsFault? inner none))
  | group => choice
    (seq [word "(", choice [rule yielded, rule named], word ")"] :: misgroup)
  | tuple => node .tuple (seq [word "(", opt (seq [rule starNamedExpression, word ",",
      opt (rule starNamedExpressions)]), word ")"])
  | set => node .set (seq [word "\x7b", rule starNamedExpressions, word "\x7d"])
  | dict => choice
    [node .dict (seq [word "\x7b", opt (seq [commas (rule pairs), opt (word ",")]),
        word "\x7d"]),
      seq [word "\x7b", rule mispairs, word "\x7d"]]
  | pairs => choice [node .unpacked (seq [word "**", rule bitOr]), rule pair]
  | pair => node .pair (seq [rule expression, word ":", rule expression])
  | mispairs => choice (seq [commas (rule pairs), word ",", rule mispair] :: misvalue)
  | mispair => choice
    (plainMistake "\x27:\x27 expected after dictionary key"
        [rule expression, notAhead (word ":")] :: misvalue)
  | setLoop => choice
    [node .setLoop (seq [word "\x7b", rule named, rule clauses, word "\x7d"]), rule misloop]
  | dictLoop => choice
    [node .dictLoop (seq [word "\x7b", rule pair, rule clauses, word "\x7d"]),
      mistake "dict unpacking cannot be used in dict comprehension"
        [word "\x7b", word "**", rule bitOr, rule clauses, word "\x7d"]]
  | generator => choice
    [node .generator (seq [word "(", unnamed, rule clauses, word ")"]), rule misloop]
  | misloop => choice
    [mistake "iterable unpacking cannot be used in comprehension"
        [words ["(", "\x7b"], rule starredArgument, rule clauses],
      mistake bareValues [word "\x7b", rule starNamedExpression, word ",",
        rule starNamedExpressions, rule clauses],
      mistake bareValues [word "\x7b", rule starNamedExpression, word ",", rule clauses]]
  | clauses => repeated (rule clause)
  | clause => choice
    [loop [word "async"], loop [],
      -- From `in` on, what goes wrong is not the fault of the targets.
      strictly (refuse
        (seq [notAhead (seq [opt (word "async"), word "for", rule targets, word "in"]),
          opt (word "async"), word "for", rule starExpressions])
        fun ts _ => (ts.head?.bind Tree.badTarget?).map fun t =>
          "cannot assign to ".toList ++ t.description)]
  | targets => choice
    [seq [rule target, notAhead (word ",")],
      seq [rule target, many (seq [word ",", rule target]), opt (word ",")]]
  | target => choice
    [seq [word "*", notAhead (word "*"), rule target], rule plainTarget]
  | plainTarget => choice
    [seq [rule targetStem, word ".", name, notAhead (words ["(", "."])], rule targetAtom]
  | targetAtom => choice
    [name, seq [word "(", rule plainTarget, word ")"],
      seq [word "(", opt (choice
        [seq [rule target, repeated (seq [word ",", rule target]), opt (word ",")],
          seq [rule target, word ","]]), word ")"]]
  | targetStem => seq [rule atom, ahead (words ["(", "."]), many (seq [choice
      [seq [word ".", name], rule generator,
        seq [word "(", opt (rule arguments), word ")"]], ahead (words ["(", "."])])]
  | arguments => choice
    [seq [rule callArguments, opt (word ","), ahead (word ")")], rule misarguments]
  | callArguments => node .arguments (choice
    [seq [commas (choice [rule starredArgument, seq [unnamed, notAhead (word "=")]]),
        opt (seq [word ",", rule keywordArguments])],
      rule keywordArguments])
  | keywordArguments => choice
    [seq [commas (rule keywordOrStarred), word ",", commas (rule keywordOrUnpacked)],
      commas (rule keywordOrStarred), commas (rule keywordOrUnpacked)]
  | starredArgument => node .starred (seq [word "*", rule expression])
  | keywordOrStarred => choice
    [rule miskeyword, node .keyword (seq [name, word "=", rule expression]),
      rule starredArgument]
  | keywordOrUnpacked => choice
    [rule miskeyword, node .keyword (seq [name, word "=", rule expression]),
      node .unpacked (seq [word "**", rule expression])]
  | miskeyword => choice
    [described "cannot assign to " ""
        [choice [leaf "True", leaf "False", leaf "None"], word "="],
      mistake singleEquals [name, word "=", rule expression, rule clauses],
      mistake "expression cannot contain assignment, perhaps you meant \"==\"?"
        [notAhead (seq [name, word "="]), rule expression, word "="]]
  | misarguments => choice
    [mistake "iterable argument unpacking follows keyword argument unpacking"
        [rule callArguments, word ",", word "*"],
      mistake bareLoop [rule expression, rule clauses, word ",",
        opt (choice [rule callArguments, seq [rule expression, rule clauses]])],
      mistake singleEquals [name, word "=", rule expression, rule clauses],
      strictly (refuse (seq [rule callArguments, rule clauses]) fun ts _ =>
        if (argumentCounts ts).1 ≤ 1 then none else some bareLoop.toList),
      mistake bareLoop [rule callArguments, word ",", rule expression, rule clauses],
      strictly (refuse (seq [rule callArguments, word ",", rule callArguments]) fun ts _ =>
        some (if (argumentCounts ts).2 then
          "positional argument follows keyword argument unpacking".toList
        else "positional argument follows keyword argument".toList))]
  | function => node .function (seq [word "lambda", opt (choice
    [rule misparameters, rule parameters]), word ":", rule expression])
  | parameters => choice
    [seq [rule slash, many (rule parameter), many (rule parameterWithDefault),
        opt (rule starParameters)],
      seq [rule slashWithDefault, many (rule parameterWithDefault), opt (rule starParameters)],
      seq [repeated (rule parameter), many (rule parameterWithDefault),
        opt (rule starParameters)],
      seq [repeated (rule parameterWithDefault), opt (rule starParameters)],
      rule starParameters]
  | slash => closed [repeated (rule parameter), word "/"]
  | slashWithDefault =>
    closed [many (rule parameter), repeated (rule parameterWithDefault), word "/"]
  | starParameters => choice
    [mistake "named arguments must follow bare *"
        [word "*", choice [word ":", seq [word ",", words [":", "**"]]]],
      mistake "var-positional argument cannot have default value" [word "*", name, word "="],
      mistake "* argument may appear only once"
        [word "*", choice [rule parameter, word ","], many (rule parameterMaybeDefault),
          word "*", choice [rule parameter, word ","]],
      seq [word "*", rule parameter, many (rule parameterMaybeDefault),
        opt (rule unpackedParameter)],
      seq [word "*", word ",", repeated (rule parameterMaybeDefault),
        opt (rule unpackedParameter)],
      rule unpackedParameter]
  | unpackedParameter => choice
    [mistake "var-keyword argument cannot have default value" [word "**", name, word "="],
      mistake "arguments cannot follow var-keyword argument"
        [word "**", name, word ",", choice [name, words ["*", "**", "/"]]],
      seq [word "**", rule parameter]]
  | parameter => closed [name]
  | parameterWithDefault => closed [name, rule default]
  | parameterMaybeDefault => closed [name, opt (rule default)]
  | default => choice
    [seq [word "=", rule expression],
      mistake "expected default value expression" [word "=", ahead (words [")", ","])]]
  | misparameters => choice
    [mistake "non-default argument follows default argument"
        [many (rule parameter),
          choice [rule slashWithDefault, repeated (rule parameterWithDefault)],
          rule parameter],
      mistake "Lambda expression parameters cannot be parenthesized"
        [many (rule parameter), word "(", commas name, opt (word ","), word ")"],
      mistake "at least one argument must precede /" [word "/", word ","],
      mistake "/ may appear only once"
        [choice [rule slash, rule slashWithDefault], many (rule parameterMaybeDefault),
          word "/"],
      mistake "/ must be ahead of *"
        [opt (choice [rule slash, rule slashWithDefault]), many (rule parameterMaybeDefault),
          word "*", choice [word ",", rule parameter], many (rule parameterMaybeDefault),
          word "/"],
      mistake "expected comma between / and *"
        [repeated (rule parameterMaybeDefault), word "/", word "*"]]

/-- The rules whose findings are kept. -/
def isKept (r : Rule) : Bool :=
  r ∈ [expression, starExpression, misassignment, disjunction, conjunction, inversion, bitOr,
    bitXor, bitAnd, shift, sum, term, factor, awaited, primary, strings, arguments, target,
    plainTarget, targetStem]

end Rule

/-! ## The grammar -/

/-- What is wrong with an expression in a field of a string, by a grammar. What is found
    while reading the tokens, not while cutting the text, is said after `before`. -/
def fieldFault? (g : Grammar Rule) (before : String) (t : Text) : Option Text :=
  match cut ('(' :: t ++ [')']) with
  | .error message => some message
  | .ok cutting =>
    match g.read ⟨cutting.tokens.toArray, cutting.ending⟩ .starExpressions with
    | .error message => some (before.toList ++ message)
    | .ok _ => none

/-- The grammar of expressions in fields of strings, with strings that have fields as often
    in each other as given. -/
def fieldGrammar : (depth : Nat) → Grammar Rule
  | 0 => ⟨Rule.pattern fun _ => none, Rule.isKept⟩
  | depth + 1 => ⟨Rule.pattern (fieldFault? (fieldGrammar depth) ""), Rule.isKept⟩

/-- The grammar of expressions. There are only four kinds of quotes, so strings with fields
    are not deeper in each other than that. -/
def grammar : Grammar Rule :=
  ⟨Rule.pattern (fieldFault? (fieldGrammar 4) "f-string: "), Rule.isKept⟩

end Literal

end Cli

end DbmlRestore
