import ViewBinding.Java.Lexeme

/-!
# Grammars

A grammar is a value: a `ViewBinding.Java.Grammar` says which tokens come in which order and which
nodes they make, and `ViewBinding.Java.Grammar.run` reads a list of tokens by it. A choice is
ordered: the second alternative is read only where the first cannot be, and an alternative once
read is not given up.

Nodes that start with a node read before them – a sum with its first summand, a type with its
arguments – are built by `ViewBinding.Java.Grammar.grow` and `ViewBinding.Java.Grammar.extend`:
what was read first is handed on, and `ViewBinding.Java.Grammar.wrap` puts it in front of its own
children.
-/

namespace ViewBinding.Java

open Text

/-- A grammar whose named rules are `R`. -/
inductive Grammar (R : Type)
  /-- Reads a name and makes a node of the kind. -/
  | name (kind : Kind)
  /-- Reads a literal of a number. -/
  | number
  /-- Reads the keyword or sign of that spelling and makes a node of the kind. -/
  | spelled (text : String) (kind : Kind)
  /-- Reads the signs of those spellings, one right after the other, that make one operator. -/
  | operator (signs : List String)
  /-- Reads by a named rule. -/
  | rule (r : R)
  /-- Reads all in turn. -/
  | chain (parts : List (Grammar R))
  /-- Reads the first that can be read. -/
  | choice (parts : List (Grammar R))
  /-- Reads the grammar as often as possible. -/
  | many (each : Grammar R)
  /-- Reads the grammar, unless it makes a node of one of the kinds. -/
  | unless (kinds : List Kind) (inner : Grammar R)
  /-- Makes one node of what the grammar makes. -/
  | node (kind : Kind) (inner : Grammar R)
  /-- Gives a role to the nodes that the grammar makes. -/
  | role (part : Role) (inner : Grammar R)
  /-- Reads the first, then the second with the nodes of the first at hand. -/
  | lead (first next : Grammar R)
  /-- Reads the grammar as often as possible, each time with the nodes made last at hand. -/
  | again (next : Grammar R)
  /-- Reads nothing and makes the nodes at hand. -/
  | kept
  /-- Makes one node of the nodes at hand, which are given the role, if any, and the nodes of the
  grammar. -/
  | wrap (kind : Kind) (part : Option Role) (inner : Grammar R)

namespace Grammar

variable {R : Type}

/-! ### Operators -/

/-- Whether `next` would make a longer operator of one that ends with `last`. -/
def continues (last next : Token) : Bool :=
  last.touches next && next.kind == .sign && [">", "=", "=="].contains next.text

/-- The last of the signs and the tokens after it, if the tokens start with the signs right after
`last`. -/
def glued? (last : Token) : List String → List Token → Option (Token × List Token)
  | [], tokens => some (last, tokens)
  | _ :: _, [] => none
  | sign :: signs, t :: rest =>
    if t.kind == .sign && t.text == sign && last.touches t then glued? t signs rest else none

/-- The operator of those signs that the tokens start with. -/
def operator? (signs : List String) : List Token → Option (Node × List Token)
  | [] => none
  | t :: rest =>
    if t.kind == .sign && some t.text == signs.head? then
      match glued? t signs.tail rest with
      | some (last, rest) =>
        if last.text == ">" && rest.head?.any (continues last) then none
        else some (.leaf (.sign (String.join signs)) (t.extent.through last.extent), rest)
      | none => none
    else none

/-! ### Reading -/

/-- Reads the tokens by the grammar: the nodes made and the tokens left over. The rules are looked
up in `rules`, and `left` are the nodes at hand. The fuel bounds the depth of the reading. -/
def run (rules : R → Grammar R) : Nat → Grammar R → List Node → List Token →
    Option (List Node × List Token)
  | 0, _, _, _ => none
  | fuel + 1, g, left, tokens =>
    match g, tokens with
    | name kind, t :: rest =>
      if t.kind == .name then some ([.leaf kind t.extent], rest) else none
    | number, t :: rest =>
      match t.kind with
      | .number kind => some ([.leaf (.literal kind) t.extent], rest)
      | _ => none
    | spelled text kind, t :: rest =>
      if t.spells text then some ([.leaf kind t.extent], rest) else none
    | operator signs, tokens => (operator? signs tokens).map fun (leaf, rest) => ([leaf], rest)
    | rule r, tokens => run rules fuel (rules r) left tokens
    | chain [], tokens => some ([], tokens)
    | chain (part :: parts), tokens => do
      let (nodes, rest) ← run rules fuel part [] tokens
      let (others, rest) ← run rules fuel (chain parts) [] rest
      some (nodes ++ others, rest)
    | choice [], _ => none
    | choice (part :: parts), tokens =>
      (run rules fuel part left tokens).or (run rules fuel (choice parts) left tokens)
    | many each, tokens =>
      match run rules fuel each [] tokens with
      | none => some ([], tokens)
      | some (nodes, rest) => do
        let (others, rest) ← run rules fuel (many each) [] rest
        some (nodes ++ others, rest)
    | .unless kinds inner, tokens => do
      let (nodes, rest) ← run rules fuel inner [] tokens
      if nodes.any fun n => kinds.contains n.kind then none else some (nodes, rest)
    | node kind inner, tokens => do
      let (nodes, rest) ← run rules fuel inner [] tokens
      some ([.spanning kind nodes], rest)
    | .role part inner, tokens => do
      let (nodes, rest) ← run rules fuel inner [] tokens
      some (nodes.map (.withRole part), rest)
    | lead first next, tokens => do
      let (nodes, rest) ← run rules fuel first [] tokens
      run rules fuel next nodes rest
    | again next, tokens =>
      match run rules fuel next left tokens with
      | none => some (left, tokens)
      | some (nodes, rest) => run rules fuel (again next) nodes rest
    | kept, tokens => some (left, tokens)
    | wrap kind part inner, tokens => do
      let (nodes, rest) ← run rules fuel inner [] tokens
      let first := match part with
        | some part => left.map (.withRole part)
        | none => left
      some ([.spanning kind (first ++ nodes)], rest)
    | _, [] => none

/-! ### Derived grammars -/

/-- The grammar, where it can be read. -/
def optional (g : Grammar R) : Grammar R :=
  choice [g, chain []]

/-- The grammar at least once, with commas in between. -/
def listOf (g : Grammar R) : Grammar R :=
  chain [g, many (chain [spelled "," (.sign ","), g])]

/-- The first, then, where it can be read, the second with the nodes of the first at hand. -/
def extend (first next : Grammar R) : Grammar R :=
  lead first (choice [next, kept])

/-- The first, then the second as often as possible, each time with the nodes made last at
hand. -/
def grow (first next : Grammar R) : Grammar R :=
  lead first (again next)

end Grammar

end ViewBinding.Java
