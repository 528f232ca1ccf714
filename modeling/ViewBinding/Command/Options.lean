import ViewBinding.Inputs

/-!
# Commands and their options

What a command line asks for. There are three commands, which take the same inputs: `generate`
stores the companions, `check` only reports the findings, and `dump` prints the companions. All of
them know the same options (`ViewBinding.Command.Flag`), so that one command can be exchanged for
another; an option that means nothing to a command is accepted and ignored, and its help does not
show it.
-/

namespace ViewBinding

/-- When to color what is printed. -/
inductive ColorChoice
  /-- On a terminal. -/
  | auto
  | always
  | never
deriving DecidableEq, Repr, Inhabited

namespace ColorChoice

/-- The word for a choice. -/
def word : ColorChoice → String
  | auto => "auto"
  | always => "always"
  | never => "never"

/-- The choice of that word. -/
def ofWord? (word : String) : Option ColorChoice :=
  [auto, always, never].find? fun choice => choice.word == word

/-- Whether to color, given whether there is a terminal. -/
def colors (isTerminal : Bool) : ColorChoice → Bool
  | auto => isTerminal
  | always => true
  | never => false

end ColorChoice

namespace Command

/-- The name of a command. -/
inductive Verb
  | generate
  | check
  | dump
deriving DecidableEq, Repr, Inhabited

/-- All commands. -/
def Verb.all : List Verb := [.generate, .check, .dump]

/-- The word for a command. -/
def Verb.word : Verb → String
  | .generate => "generate"
  | .check => "check"
  | .dump => "dump"

/-- The command of that word. -/
def Verb.ofWord? (word : String) : Option Verb :=
  Verb.all.find? fun verb => verb.word == word

/-- An option that is named on the command line. -/
inductive Flag
  | output
  | noHeader
  | indent
  | source
  | manifest
  | strict
  | color
  | verbose
  | help
deriving DecidableEq, Repr, Inhabited

namespace Flag

/-- All options. -/
def all : List Flag :=
  [output, noHeader, indent, source, manifest, strict, color, verbose, help]

/-- The name of an option after two hyphens. -/
def long : Flag → String
  | output => "output"
  | noHeader => "no-header"
  | indent => "indent"
  | source => "source"
  | manifest => "manifest"
  | strict => "strict"
  | color => "color"
  | verbose => "verbose"
  | help => "help"

/-- The letter of an option after one hyphen, if it has one. -/
def short? : Flag → Option Char
  | output => some 'o'
  | source => some 's'
  | verbose => some 'v'
  | help => some 'h'
  | _ => none

/-- What the value of an option is called, if it takes one. -/
def valueName? : Flag → Option String
  | output => some "DIR"
  | indent => some "N"
  | source => some "TEXT"
  | manifest => some "FILE"
  | color => some "WHEN"
  | _ => none

/-- The option with its value as messages and the help show it. -/
def spelled (f : Flag) : String :=
  let value := match f.valueName? with
    | some name => " <" ++ name ++ ">"
    | none => if f = verbose then "..." else ""
  "--" ++ f.long ++ value

/-- The option of that name. -/
def ofLong? (name : String) : Option Flag :=
  all.find? fun f => f.long == name

/-- The option of that letter. -/
def ofShort? (c : Char) : Option Flag :=
  all.find? fun f => f.short? == some c

end Flag

/-- The largest indentation. -/
def maxIndent : Nat := 16

/-- The indentation when none is given. -/
def defaultIndent : Nat := 2

end Command

/-- The options that all commands use. -/
structure CommonOptions where
  inputs : Inputs
  /-- Whether warnings fail the command. -/
  strict : Bool
  color : ColorChoice
  /-- How much to log. -/
  verbosity : Nat
deriving DecidableEq, Repr, Inhabited

/-- The options on the text of companions. -/
structure TextOptions where
  header : Bool
  /-- The spaces of one level of indentation. -/
  indent : Nat
deriving DecidableEq, Repr, Inhabited

/-- What a command line asks for. -/
inductive Command
  | generate (options : CommonOptions) (text : TextOptions) (output : Option Files.Path)
  | check (options : CommonOptions)
  | dump (options : CommonOptions) (text : TextOptions)
deriving DecidableEq, Repr

namespace Command

/-- The name of a command. -/
def verb : Command → Verb
  | generate _ _ _ => .generate
  | check _ => .check
  | dump _ _ => .dump

/-- The options that all commands use. -/
def common : Command → CommonOptions
  | generate options _ _ => options
  | check options => options
  | dump options _ => options

/-- What is logged at a verbosity, unless the environment says otherwise. -/
def logDirectives : Nat → String
  | 0 => "warn"
  | 1 => "warn,viewbind=debug,viewbind_compiler=debug"
  | _ => "warn,viewbind=trace,viewbind_compiler=trace"

end Command

end ViewBinding
