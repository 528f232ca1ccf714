import ViewBinding.Command.Options

/-!
# Help

The help on the program, on each command, and on `help` itself.
-/

namespace ViewBinding.Command

/-- What help can be asked for. -/
inductive Topic
  | program
  | command (verb : Verb)
  | help
deriving DecidableEq, Repr, Inhabited

/-- One sentence on a command. -/
def Verb.about : Verb → String
  | .generate => "Write binding classes to an output directory"
  | .check => "Report binding diagnostics"
  | .dump => "Print generated binding classes"

/-- One sentence on `help`. -/
def helpAbout : String := "Print this message or the help of the given subcommand(s)"

/-- The ways of calling a command. -/
def Verb.usage : Verb → List String
  | .generate => [
    "viewbind generate <PATH>... -o <DIR>",
    "viewbind generate --manifest <FILE> -o <DIR>",
    "viewbind generate -s <TEXT> -o <DIR>"]
  | .check => [
    "viewbind check <PATH>...",
    "viewbind check --manifest <FILE>",
    "viewbind check -s <TEXT>"]
  | .dump => [
    "viewbind dump <PATH>...",
    "viewbind dump -s <TEXT>"]

/-- Calls of a command. -/
def Verb.examples : Verb → List String
  | .generate => [
    "viewbind generate src/main/java -o build/generated",
    "viewbind generate Main.java --manifest ids.json -o out",
    "viewbind generate src --strict -o out        # fail on warnings"]
  | .check => [
    "viewbind check src/main/java",
    "viewbind check -s 'class A \x7b @BindView(1) View v; \x7d'",
    "cat ids.json | viewbind check --manifest -"]
  | .dump => [
    "viewbind dump Main.java",
    "viewbind dump src --no-header --indent 4",
    "viewbind dump -s 'class A \x7b @BindView(1) View v; \x7d'"]

/-- The options that the help on a command shows, in order. -/
def Verb.flags : Verb → List Flag
  | .generate => Flag.all
  | .check => Flag.all.drop 3
  | .dump => Flag.all.drop 1

/-- One sentence on an option. -/
def Flag.about : Flag → String
  | .output => "Directory to write generated sources to"
  | .noHeader => "Omit the generated-file header comment"
  | .indent => "Spaces per indentation level [default: 2]"
  | .source => "Inline Java source"
  | .manifest => "JSON binding manifest (`-` reads stdin)"
  | .strict => "Treat warnings as errors"
  | .color => "Colorize output [default: auto] [possible values: auto, always, never]"
  | .verbose => "Log progress to stderr (-v debug, -vv trace)"
  | .help => "Print help"

/-- An option with its letter, indented. -/
def Flag.entry (f : Flag) : String :=
  let letter := match f.short? with
    | some c => "-" ++ String.singleton c ++ ", "
    | none => "    "
  "  " ++ letter ++ f.spelled

/-- A table of two columns. -/
def table (rows : List (String × String)) : List String :=
  let width := (rows.map fun row => row.1.length).foldl max 0
  rows.map fun row =>
    row.1 ++ String.ofList (List.replicate (width + 2 - row.1.length) ' ') ++ row.2

/-- The table of options. -/
def flagTable (flags : List Flag) : List String :=
  "Options:" :: table (flags.map fun f => (f.entry, f.about))

/-- The lines of the help on a command. -/
def Verb.help (v : Verb) : List String :=
  [v.about, ""]
    ++ (match v.usage with
      | [] => []
      | first :: rest => ("Usage: " ++ first) :: rest.map ("  " ++ ·))
    ++ ["", "Arguments:", "  [PATH]...  Java files or directories (`-` reads stdin)", ""]
    ++ flagTable v.flags
    ++ ["", "EXAMPLES:"] ++ v.examples.map ("  " ++ ·)

/-- The lines of the help on a topic. -/
def Topic.lines : Topic → List String
  | .program =>
    ["Generate view binding classes for @BindView fields", "", "Usage: viewbind <COMMAND>", "",
      "Commands:"]
    ++ table (Verb.all.map (fun v => ("  " ++ v.word, v.about)) ++ [("  help", helpAbout)])
    ++ [""] ++ flagTable [.help]
  | .command verb => verb.help
  | .help =>
    [helpAbout, "", "Usage: viewbind help [COMMAND]...", "", "Arguments:",
      "  [COMMAND]...  Print help for the subcommand(s)"]

/-- The help on a topic. -/
def Topic.text (t : Topic) : String :=
  String.join (t.lines.map (· ++ "\n"))

end ViewBinding.Command
