import ViewBinding.Text.Extent

/-!
# Sources

The texts that one round reads, numbered from zero in the order in which they were given. A
`ViewBinding.Place` is an extent in one of them. A place may name a source that is not there; its
text is then empty and its name says so.
-/

namespace ViewBinding

open Text

/-- Where a text came from. -/
inductive Origin
  /-- Given on the command line. -/
  | inline
  /-- Read from the standard input. -/
  | stdin
  /-- Read from a file of that path. -/
  | file (path : String)
deriving DecidableEq, Repr, Inhabited

/-- How the origin is shown. -/
def Origin.display : Origin → String
  | inline => "<source>"
  | stdin => "<stdin>"
  | file path => path

/-- A text and where it came from. -/
structure Source where
  origin : Origin
  content : String
deriving DecidableEq, Repr, Inhabited

/-- The sources of a round, in order. -/
abbrev Sources := List Source

namespace Sources

/-- The text of the source of that number, empty if there is none. -/
def content (sources : Sources) (number : Nat) : String :=
  (sources[number]?.map Source.content).getD ""

/-- How the source of that number is shown. -/
def display (sources : Sources) (number : Nat) : String :=
  (sources[number]?.map fun source => source.origin.display).getD "<unknown>"

end Sources

/-- An extent in one of the sources. -/
structure Place where
  /-- The number of the source. -/
  source : Nat
  extent : Extent
deriving DecidableEq, Repr, Inhabited

end ViewBinding
