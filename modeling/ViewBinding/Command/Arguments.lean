import ViewBinding.Command.Help

/-!
# Reading a command line

`ViewBinding.Command.parse` reads the arguments of the program. An argument is a long option
`--name` or `--name=value`, a cluster of short options such as `-vo`, in which an option that takes
a value takes all that follows, or a word: the value of the option before it, or else a path. After
`--` all arguments are paths.

A value is checked only when the next option or path is met, or at the end
(`ViewBinding.Command.Given.settle`); until then it is pending. That decides which of two errors is
reported: an unknown option is reported at once, even if the pending value is wrong.
-/

namespace ViewBinding.Command

open Files Text

/-! ### What can be wrong -/

/-- Why a value is no indentation. -/
inductive IndentFlaw
  | empty
  | noDigit
  | tooLarge
  | tooSmall
  | outOfRange (n : Int)
deriving DecidableEq, Repr

/-- The wording of a flaw. -/
def IndentFlaw.message : IndentFlaw → String
  | .empty => "cannot parse integer from empty string"
  | .noDigit => "invalid digit found in string"
  | .tooLarge => "number too large to fit in target type"
  | .tooSmall => "number too small to fit in target type"
  | .outOfRange n => toString n ++ " is not in 0..=" ++ toString maxIndent

/-- Why a command line does not lead to a command. -/
inductive UsageError
  /-- It asks for help. -/
  | helpWanted (topic : Topic)
  /-- It is empty. -/
  | nothingGiven
  | unknownArgument (argument : String)
  | unknownCommand (word : String)
  /-- An option or path without its value. -/
  | noValue (spelled : String)
  | badColor (value : String)
  | badIndent (value : String) (flaw : IndentFlaw)
  /-- An option that may stand only once. -/
  | repeated (flag : Flag)
  /-- An option that takes no value. -/
  | needlessValue (value : String) (flag : Flag)
deriving DecidableEq, Repr

/-- The wording of an error; a wish for help has none. -/
def UsageError.message : UsageError → String
  | .helpWanted _ | .nothingGiven => ""
  | .unknownArgument argument => "unexpected argument '" ++ argument ++ "' found"
  | .unknownCommand word => "unrecognized subcommand '" ++ word ++ "'"
  | .noValue spelled => "a value is required for '" ++ spelled ++ "' but none was supplied"
  | .badColor value => "invalid value '" ++ value ++ "' for '" ++ Flag.color.spelled ++ "'"
  | .badIndent value flaw =>
    "invalid value '" ++ value ++ "' for '" ++ Flag.indent.spelled ++ "': " ++ flaw.message
  | .repeated flag => "the argument '" ++ flag.spelled ++ "' cannot be used multiple times"
  | .needlessValue value flag =>
    "unexpected value '" ++ value ++ "' for '" ++ flag.spelled
      ++ "' found; no more were expected"

/-! ### Values -/

/-- The number that digits add up to, as long as it is at most `limit`. -/
def digitsUpTo (limit : Nat) (overflow : IndentFlaw) (n : Nat) :
    List Char → Except IndentFlaw Nat
  | [] => .ok n
  | c :: cs =>
    if !c.isDigit then .error .noDigit
    else
      let n := n * 10 + (c.toNat - '0'.toNat)
      if n > limit then .error overflow else digitsUpTo limit overflow n cs

/-- The number of 64 bits that a text is. -/
def integerOf (text : String) : Except IndentFlaw Int :=
  match text.toList with
  | [] => .error .empty
  | ['-'] | ['+'] => .error .noDigit
  | '-' :: cs => (digitsUpTo 0x8000000000000000 .tooSmall 0 cs).map fun n => -(n : Int)
  | '+' :: cs => (digitsUpTo 0x7FFFFFFFFFFFFFFF .tooLarge 0 cs).map Int.ofNat
  | cs => (digitsUpTo 0x7FFFFFFFFFFFFFFF .tooLarge 0 cs).map Int.ofNat

/-- The indentation that a text is. -/
def indentOf (text : String) : Except IndentFlaw Nat :=
  match integerOf text with
  | .error flaw => .error flaw
  | .ok n => if 0 ≤ n && n ≤ maxIndent then .ok n.toNat else .error (.outOfRange n)

/-- What the paths are called in messages. -/
def pathsSpelled : String := "[PATH]..."

/-- The path that a text is; no path is empty. -/
def pathOf (spelled text : String) : Except UsageError Path :=
  if text = "" then .error (.noValue spelled) else .ok ⟨text⟩

/-! ### What was given -/

/-- What an argument is given for. -/
inductive Slot
  | flag (f : Flag)
  | paths
deriving DecidableEq, Repr

/-- The options and paths given so far. -/
structure Given where
  paths : List Path
  source : Option String
  manifests : List Path
  output : Option Path
  strict : Bool
  noHeader : Bool
  indent : Option Nat
  color : Option ColorChoice
  verbosity : Nat
deriving DecidableEq, Repr, Inhabited

/-- Nothing. -/
def Given.nothing : Given :=
  ⟨[], none, [], none, false, false, none, none, 0⟩

/-- The largest verbosity that is counted. -/
def maxVerbosity : Nat := 255

namespace Given

/-- Sets an option that may stand only once. -/
def once (flag : Flag) (isGiven : Bool) (g : Except UsageError Given) : Except UsageError Given :=
  if isGiven then .error (.repeated flag) else g

/-- Takes in an option without a value. -/
def switch (verb : Verb) (g : Given) : Flag → Except UsageError Given
  | .help => .error (.helpWanted (.command verb))
  | .verbose => .ok { g with verbosity := min (g.verbosity + 1) maxVerbosity }
  | .strict => once .strict g.strict (.ok { g with strict := true })
  | .noHeader => once .noHeader g.noHeader (.ok { g with noHeader := true })
  | _ => .ok g

/-- Takes in an option with its value. -/
def set (g : Given) (value : String) : Flag → Except UsageError Given
  | .source => once .source g.source.isSome (.ok { g with source := some value })
  | .output => once .output g.output.isSome do
    let path ← pathOf Flag.output.spelled value
    return { g with output := some path }
  | .manifest => do
    let path ← pathOf Flag.manifest.spelled value
    return { g with manifests := g.manifests ++ [path] }
  | .indent => once .indent g.indent.isSome <|
    match indentOf value with
    | .ok n => .ok { g with indent := some n }
    | .error flaw => .error (.badIndent value flaw)
  | .color => once .color g.color.isSome <|
    match ColorChoice.ofWord? value with
    | some choice => .ok { g with color := some choice }
    | none =>
      .error (if value = "" then .noValue Flag.color.spelled else .badColor value)
  | _ => .ok g

/-- Takes in paths. -/
def addPaths (g : Given) : List String → Except UsageError Given
  | [] => .ok g
  | value :: values => do
    let path ← pathOf pathsSpelled value
    addPaths { g with paths := g.paths ++ [path] } values

/-- Takes in what is pending. -/
def settle (g : Given) : Option (Slot × List String) → Except UsageError Given
  | none => .ok g
  | some (.paths, values) => g.addPaths values
  | some (.flag f, []) => .error (.noValue f.spelled)
  | some (.flag f, value :: _) => g.set value f

end Given

/-! ### Reading arguments -/

/-- How far the arguments of a command were read. -/
structure Progress where
  given : Given
  /-- What was given last, with values that are not checked yet. -/
  pending : Option (Slot × List String)
  /-- Whether only paths may follow. -/
  trailing : Bool
deriving DecidableEq, Repr

/-- The start. -/
def Progress.start : Progress := ⟨.nothing, none, false⟩

namespace Progress

/-- Checks what is pending and goes on. -/
def settled (p : Progress) : Except UsageError Progress := do
  return { p with given := ← p.given.settle p.pending, pending := none }

/-- Reads an option without a value. -/
def readSwitch (verb : Verb) (p : Progress) (f : Flag) : Except UsageError Progress := do
  let p ← p.settled
  return { p with given := ← p.given.switch verb f }

/-- Reads an option together with its value. -/
def readAttached (p : Progress) (f : Flag) (value : String) : Except UsageError Progress := do
  let p ← p.settled
  return { p with given := ← p.given.set value f }

/-- Reads an option whose value is the next argument. -/
def readOpen (p : Progress) (f : Flag) : Except UsageError Progress := do
  let p ← p.settled
  return { p with pending := some (.flag f, []) }

/-- Reads a long option. -/
def readLong (verb : Verb) (p : Progress) (name : String) (value : Option String) :
    Except UsageError Progress :=
  match Flag.ofLong? name with
  | none => .error (.unknownArgument ("--" ++ name))
  | some f =>
    if f.valueName?.isSome then
      match value with
      | some value => p.readAttached f value
      | none => p.readOpen f
    else
      match value with
      | some value => .error (.needlessValue value f)
      | none => p.readSwitch verb f

/-- Reads a cluster of short options. -/
def readShort (verb : Verb) (p : Progress) : List Char → Except UsageError Progress
  | [] => .ok p
  | c :: cs =>
    match Flag.ofShort? c with
    | none => .error (.unknownArgument ("-" ++ String.singleton c))
    | some f =>
      if f.valueName?.isSome then
        match cs with
        | [] => p.readOpen f
        | '=' :: value => p.readAttached f (String.ofList value)
        | value => p.readAttached f (String.ofList value)
      else
        match p.readSwitch verb f with
        | .error e => .error e
        | .ok p => p.readShort verb cs

/-- Reads a path. -/
def readPath (p : Progress) (argument : String) : Except UsageError Progress :=
  match p.pending with
  | some (.paths, values) => .ok { p with pending := some (.paths, values ++ [argument]) }
  | _ => do
    let p ← p.settled
    return { p with pending := some (.paths, [argument]) }

/-- Reads a word: the value of an open option, or a path. -/
def readWord (p : Progress) (argument : String) : Except UsageError Progress :=
  match p.pending with
  | some (.flag f, []) => .ok { p with pending := some (.flag f, [argument]) }
  | _ => p.readPath argument

end Progress

/-- The form of an argument. -/
inductive Form
  /-- Two hyphens alone. -/
  | escape
  | long (name : String) (value : Option String)
  | short (letters : List Char)
  | word
deriving DecidableEq, Repr

/-- The form that an argument has. -/
def Form.of (argument : String) : Form :=
  match argument.toList with
  | ['-', '-'] => .escape
  | '-' :: '-' :: rest =>
    let name := rest.takeWhile (· ≠ '=')
    .long (String.ofList name)
      (if name.length = rest.length then none
        else some (String.ofList (rest.drop (name.length + 1))))
  | ['-'] => .word
  | '-' :: letters => .short letters
  | _ => .word

/-- Reads one argument of a command. -/
def Progress.read (verb : Verb) (p : Progress) (argument : String) :
    Except UsageError Progress :=
  if p.trailing then p.readPath argument
  else
    match Form.of argument with
    | .escape => .ok { p with trailing := true }
    | .long name value => p.readLong verb name value
    | .short letters => p.readShort verb letters
    | .word => p.readWord argument

/-- Reads the arguments of a command. -/
def Progress.readAll (verb : Verb) (p : Progress) : List String → Except UsageError Progress
  | [] => p.settled
  | argument :: arguments =>
    match p.read verb argument with
    | .error e => .error e
    | .ok p => p.readAll verb arguments

/-- The command that the options and paths make up. -/
def Given.command (g : Given) (verb : Verb) : Command :=
  let options : CommonOptions :=
    ⟨⟨g.paths, g.source, g.manifests⟩, g.strict, g.color.getD .auto, g.verbosity⟩
  let text : TextOptions := ⟨!g.noHeader, g.indent.getD defaultIndent⟩
  match verb with
  | .generate => .generate options text g.output
  | .check => .check options
  | .dump => .dump options text

/-! ### The first argument -/

/-- The topic that the arguments of `help` name. -/
def helpTopic : List String → UsageError
  | [] => .helpWanted .program
  | word :: words =>
    let topic? := if word = "help" then some .help else (Verb.ofWord? word).map Topic.command
    match topic?, words with
    | none, _ => .unknownCommand word
    | some topic, [] => .helpWanted topic
    | some _, next :: _ => .unknownCommand next

/-- The error of an option in front of the command; there only `--help` is known. -/
def leadingOption : Form → UsageError
  | .long name value =>
    if name ≠ Flag.help.long then .unknownArgument ("--" ++ name)
    else
      match value with
      | some value => .needlessValue value .help
      | none => .helpWanted .program
  | .short (c :: _) =>
    if Flag.help.short? = some c then .helpWanted .program
    else .unknownArgument ("-" ++ String.singleton c)
  | _ => .nothingGiven

/-- The error of the arguments after two hyphens that stand in front of the command. -/
def afterEscape : List String → UsageError
  | [] => .nothingGiven
  | word :: _ =>
    if word = "help" || (Verb.ofWord? word).isSome then .unknownArgument word
    else .unknownCommand word

/-- Reads the arguments of the program. -/
def parse : List String → Except UsageError Command
  | [] => .error .nothingGiven
  | word :: arguments =>
    match Verb.ofWord? word with
    | some verb =>
      match Progress.start.readAll verb arguments with
      | .error e => .error e
      | .ok p => .ok (p.given.command verb)
    | none =>
      if word = "help" then .error (helpTopic arguments)
      else
        match Form.of word with
        | .word => .error (.unknownCommand word)
        | .escape => .error (afterEscape arguments)
        | form => .error (leadingOption form)

end ViewBinding.Command
