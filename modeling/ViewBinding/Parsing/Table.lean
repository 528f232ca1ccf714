import ViewBinding.Parsing.Merging

/-!
# Tables

A `ViewBinding.Parsing.Table` holds everything that a reader of a language asks for: what to do
with a token in a state, where to go after a nonterminal, and which kinds of tokens to look for in
a state. States that look for different kinds can share one mode, which looks for all of them, as
long as no kind could be taken for another one (`ViewBinding.Parsing.Mode.union?`).
-/

namespace ViewBinding.Parsing

/-- A way to look for tokens. -/
structure Mode where
  /-- The kinds of tokens looked for. -/
  front : List Nat
  /-- Whether the end of the text is looked for as well. -/
  atEnd : Bool
deriving Inhabited

/-- What a reader of a language needs to know. -/
structure Table where
  productions : Productions
  shapes : Array Shape
  scanner : Scanner
  states : Array State
  /-- The terminals for which there is something to do in a state. -/
  tokens : Array Nat
  /-- The mode of each state. -/
  modeOf : Array Nat
  modes : Array Mode
  /-- The terminal of names. -/
  name : Nat
  /-- The keywords that are spelled like names. -/
  keywords : List Nat
  /-- The terminals that share characters with each terminal. -/
  overlaps : Array Nat

namespace Mode

/-- The terminals that must not be looked for together with each terminal. -/
def hindrances (t : Merging.Tokens) : Array Nat :=
  t.rivals.sets fun i j =>
    t.rivals.conflicts i j || (t.rivals.get i j).cutsShort
      || (!(t.together.getD i 0).testBit j && (t.rivals.overlaps i j || t.rivals.overlaps j i))

/-- The union of two sets of terminals, if both can be looked for at once. -/
def union? (count : Nat) (hindrances : Array Nat) (a b : Nat) : Option Nat :=
  let fits (x y : Nat) : Bool := (terminalsIn count (x &&& (x ^^^ y))).all fun terminal =>
    terminal = 0 || (hindrances.getD terminal 0) &&& y == 0
  if fits a b && fits b a then some (a ||| b) else none

/-- Adds a set of terminals to the first of the modes that it fits into, or as a new one: the
number of the mode, and the modes. -/
def insert (count : Nat) (hindrances : Array Nat) (set : Nat) : List Nat → Nat × List Nat
  | [] => (0, [set])
  | mode :: rest =>
    match union? count hindrances mode set with
    | some both => (0, both :: rest)
    | none =>
      let (n, rest) := insert count hindrances set rest
      (n + 1, mode :: rest)

end Mode

namespace Table

/-- The table of a language. -/
def ofLanguage (l : Language) : Table :=
  let productions := l.productions
  let items := Items.ofProductions productions
  let scanner := Scanner.ofTerminals productions.terminals
  let count := productions.terminals.size + 1
  let canonical := (Canonical.ofItems items).states
  let rivals := Rivals.ofItems items scanner
  let known := Merging.Tokens.ofStates productions rivals canonical
  let states := Merging.ofCanonical productions known canonical
  let tokens := states.map Merging.tokensOf
  let hindrances := Mode.hindrances known
  let looked := tokens.map fun set =>
    if set &&& known.keywords = 0 then set
    else (set ^^^ (set &&& known.keywords)) ||| terminalSet known.name
  let (modeOf, modes) := looked.foldl
    (fun (modeOf, modes) set =>
      let (n, modes) := Mode.insert count hindrances set modes
      (modeOf.push n, modes))
    ((#[] : Array Nat), ([] : List Nat))
  { productions, scanner, states, tokens, modeOf
    shapes := items.shapes
    modes := (modes.map fun set =>
      ⟨((terminalsIn count set).filter (· != 0)).map (· - 1), set.testBit 0⟩).toArray
    name := known.name
    keywords := (terminalsIn count known.keywords).map (· - 1)
    overlaps := rivals.sets fun t other => rivals.overlaps other t }

/-- What to do in a state with a terminal. -/
def actions (t : Table) (state terminal : Nat) : List Action :=
  ((t.states[state]?.map (·.actions)).getD #[]).getD terminal []

/-- The state after a nonterminal. -/
def goto (t : Table) (state nonterminal : Nat) : Nat :=
  ((t.states[state]?.map (·.gotos)).getD #[]).getD nonterminal 0

/-- The state after a terminal, or `0` if it cannot be taken. -/
def after (t : Table) (state terminal : Nat) : Nat :=
  match (t.actions state terminal).getLast? with
  | some .pass => state
  | some (.shift target _) => target
  | _ => 0

/-- The mode of a state. -/
def mode (t : Table) (state : Nat) : Mode :=
  t.modes.getD (t.modeOf.getD state 0) default

/-- Whether a token of the terminal would be read in the state as well, if it was read where other
kinds of tokens were looked for. -/
def isSettled (t : Table) (state terminal : Nat) : Bool :=
  state != 0 && (t.tokens.getD state 0).testBit terminal
    && (t.tokens.getD state 0) &&& (t.overlaps.getD terminal 0) == 0

end Table

end ViewBinding.Parsing
