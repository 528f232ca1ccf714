import ViewBinding.Command.Arguments
import ViewBinding.Display.Panel
import ViewBinding.Round.Emission

/-!
# Running a command

What a command prints, what it stores, and how it ends. `ViewBinding.Command.load` reads the inputs
and makes the round; what remains is a matter of the command alone
(`ViewBinding.Command.perform`). Findings are printed first. A round that failed ends every
command; one that did not is stored by `generate`, printed by `dump` and passed over in silence by
`check`.
-/

namespace ViewBinding

open Files

/-- What a program has done when it ends, the files it wrote aside. -/
structure Outcome where
  stdout : String
  stderr : String
  status : Nat
deriving DecidableEq, Repr, Inhabited

/-- The outcome of a program that stops with an error. -/
def Outcome.fatal (message : String) : Outcome :=
  ⟨"", "error: " ++ message ++ "\n", 1⟩

/-- What a program finds around it, the disk aside. -/
structure Host where
  surroundings : Surroundings
  /-- Whether what is printed goes to a terminal. -/
  isTerminal : Bool

namespace Command

/-- Reads the inputs and makes the round, or gives the wording of the error. -/
def load (s : Surroundings) (options : CommonOptions) : Except String Round :=
  match options.inputs.load s with
  | .error e => .error e.message
  | .ok loaded =>
    match scan loaded.sources loaded.manifests options.strict with
    | .error message => .error (manifestErrorMessage message)
    | .ok found => .ok found.synthesize

/-- The layout of companions. -/
def layout (text : TextOptions) (colored : Bool) : Layout :=
  ⟨text.header, String.ofList (List.replicate text.indent ' '), .ofFlag colored⟩

/-- What a command does with a round that did not fail, after its findings are printed. -/
def finish {m : Type → Type} [Monad m] (d : Disk m) (colored : Bool) (report : String)
    (r : Round) : Command → m Outcome
  | .check _ => pure ⟨"", report, 0⟩
  | .dump _ text =>
    pure ⟨Companion.listing (layout text colored) r.companions, report, 0⟩
  | .generate _ _ none => pure ⟨"", report, 0⟩
  | .generate _ text (some output) => do
    match ← r.emit (d.store output) (layout text false) with
    | .ok _ => pure ⟨"", report, 0⟩
    | .error e => pure ⟨"", report ++ (Outcome.fatal e.message).stderr, 1⟩

/-- Prints the findings of a round and goes on if it did not fail. -/
def perform {m : Type → Type} [Monad m] (d : Disk m) (isTerminal : Bool) (c : Command)
    (r : Round) : m Outcome :=
  let colored := c.common.color.colors isTerminal
  let report := r.report.display r.sources colored
  if r.isValid then finish d colored report r c else pure ⟨"", report, 1⟩

/-- Whether the command lacks the directory that it is to write to. -/
def lacksOutput : Command → Bool
  | .generate _ _ none => true
  | _ => false

/-- Runs a command. -/
def run {m : Type → Type} [Monad m] (d : Disk m) (h : Host) (c : Command) : m Outcome :=
  if c.lacksOutput then pure (.fatal "output directory is required: use -o/--output")
  else
    match load h.surroundings c.common with
    | .error message => pure (.fatal message)
    | .ok r => perform d h.isTerminal c r

end Command

/-- The outcome of a command line that leads to no command. -/
def Command.UsageError.outcome : Command.UsageError → Outcome
  | .helpWanted topic => ⟨topic.text, "", 0⟩
  | .nothingGiven => ⟨"", Command.Topic.program.text, 2⟩
  | e => ⟨"", "error: " ++ e.message ++ "\n\nFor more information, try '--help'.\n", 2⟩

/-- Runs the program with these arguments. -/
def runProgram {m : Type → Type} [Monad m] (d : Disk m) (h : Host) (arguments : List String) :
    m Outcome :=
  match Command.parse arguments with
  | .error e => pure e.outcome
  | .ok c => c.run d h

end ViewBinding
