import ViewBinding.Parsing.Scanner

/-!
# Languages

A `ViewBinding.Parsing.Language` is a description of a language for reading texts that may have
faults: the kinds of tokens and the rules of what they are put together to. A
`ViewBinding.Parsing.Rule` is an expression over tokens and the names of rules; its marks
(`ViewBinding.Parsing.Mark`) do not change which texts it describes, but which of several readings
of a text is taken, and what the nodes of the tree are called.
-/

namespace ViewBinding.Parsing

/-- On which side the operators of one weight are grouped first. -/
inductive Side
  | left
  | right
deriving DecidableEq, Repr, Hashable, Inhabited

/-- What is said about a part of a rule. -/
inductive Mark
  /-- Binds with the given weight: of two readings the one that binds more strongly is taken. -/
  | weight (n : Int)
  /-- Binds with the given weight and is grouped on the given side. -/
  | grouped (n : Int) (side : Side)
  /-- Adds to the merit of a reading, which decides between readings of one part of a text that
  are both carried through. -/
  | merit (n : Int)
  /-- Makes nodes of the given name. -/
  | named (name : String)
  /-- Gives the nodes a role in their parent. -/
  | role (name : String)
deriving DecidableEq, Repr

/-- A description of texts. -/
inductive Rule
  /-- The empty text. -/
  | nothing
  /-- A token of the named kind. -/
  | token (name : String)
  /-- What the named rule describes. -/
  | rule (name : String)
  /-- The first, then the second. -/
  | seq (first second : Rule)
  /-- The first or the second. -/
  | alt (first second : Rule)
  /-- Once or several times. -/
  | many1 (each : Rule)
  /-- The rule with something said about it. -/
  | marked (mark : Mark) (inner : Rule)
deriving DecidableEq, Repr, Inhabited

namespace Rule

/-- All rules in turn. -/
def chain : List Rule → Rule
  | [] => nothing
  | [r] => r
  | r :: rs => seq r (chain rs)

/-- Any of the rules. -/
def choice : List Rule → Rule
  | [] => nothing
  | [r] => r
  | r :: rs => alt r (choice rs)

/-- The rule or nothing. -/
def optional (r : Rule) : Rule :=
  alt r nothing

/-- The rule any number of times. -/
def many (r : Rule) : Rule :=
  optional (many1 r)

/-- The rule at least once, with the second one in between. -/
def separated (r separator : Rule) : Rule :=
  seq r (many (seq separator r))

/-- The rule with nodes in the given role. -/
def as (part : String) (r : Rule) : Rule :=
  marked (.role part) r

/-- The rule with nodes of the given name. -/
def called (name : String) (r : Rule) : Rule :=
  marked (.named name) r

/-- The rule with the given weight. -/
def weighing (n : Int) (r : Rule) : Rule :=
  marked (.weight n) r

/-- The rule with the given weight, grouped on the left. -/
def leftward (n : Int) (r : Rule) : Rule :=
  marked (.grouped n .left) r

/-- The rule with the given weight, grouped on the right. -/
def rightward (n : Int) (r : Rule) : Rule :=
  marked (.grouped n .right) r

/-- The rule with the given merit. -/
def deserving (n : Int) (r : Rule) : Rule :=
  marked (.merit n) r

end Rule

/-- What becomes of the nodes of a rule. -/
inductive Standing
  /-- The rule makes nodes. -/
  | shown
  /-- The children take the place of the nodes. -/
  | hidden
  /-- As `hidden`; the rule is a choice among kinds of nodes. -/
  | family
  /-- The description takes the place of the name wherever the rule is used. -/
  | inlined
deriving DecidableEq, Repr

/-- A named rule. -/
structure Definition where
  name : String
  standing : Standing := .shown
  rule : Rule

/-- The description of a language. The first kind of tokens are its names and the first definition
describes whole texts. -/
structure Language where
  terminals : List Terminal
  /-- The kinds of tokens that may stand anywhere. -/
  extras : List String
  definitions : List Definition

end ViewBinding.Parsing
