import ViewBinding.Parsing.Rule

/-!
# Productions

A rule is an expression; a `ViewBinding.Parsing.Production` is one of the sequences of symbols that
it describes. `ViewBinding.Parsing.Language.productions` turns all rules of a language into
productions: choices become productions of their own, a repetition becomes a nonterminal that
stands for one occurrence or for two of itself, and an inlined rule is replaced by its productions.

Symbols are numbers. Terminal `0` is the end of a text, and the kinds of tokens follow from `1` on
in their order.
-/

namespace ViewBinding.Parsing

/-- A symbol of a production. -/
inductive Symbol
  | terminal (n : Nat)
  | nonterminal (n : Nat)
deriving DecidableEq, Repr, Hashable, Inhabited

/-- A symbol in a production, with what the marks around it say. -/
structure Step where
  symbol : Symbol
  weight : Option Int
  side : Option Side
  name : Option String
  role : Option String
deriving DecidableEq, Repr, Hashable, Inhabited

/-- A sequence of symbols and its merit. -/
structure Production where
  merit : Int
  steps : List Step
deriving DecidableEq, Repr, Hashable, Inhabited

/-- A nonterminal with its productions. -/
structure Nonterminal where
  name : String
  /-- What becomes of its nodes; none for a repetition. -/
  standing : Option Standing
  productions : List Production
deriving Inhabited

namespace Nonterminal

/-- Whether the nonterminal makes nodes. -/
def isShown (n : Nonterminal) : Bool :=
  n.standing == some .shown

end Nonterminal

/-! ### Repetitions -/

/-- The repetitions found in the rules, each with the name that stands for it. -/
abbrev Repetitions := List (Rule × String)

/-- The rule with names in place of its repetitions. -/
def Rule.withoutRepetitions (known : Repetitions) : Rule → Rule × Repetitions
  | .seq a b =>
    let (a, known) := a.withoutRepetitions known
    let (b, known) := b.withoutRepetitions known
    (.seq a b, known)
  | .alt a b =>
    let (a, known) := a.withoutRepetitions known
    let (b, known) := b.withoutRepetitions known
    (.alt a b, known)
  | .marked mark inner =>
    let (inner, known) := inner.withoutRepetitions known
    (.marked mark inner, known)
  | .many1 each =>
    let (each, known) := each.withoutRepetitions known
    match known.lookup each with
    | some name => (.rule name, known)
    | none =>
      let name := s!"repetition {known.length}"
      (.rule name, known ++ [(each, name)])
  | r => (r, known)

/-! ### Choices -/

/-- The rules without choices that describe the rule together. -/
def Rule.ways : Rule → List Rule
  | .seq a b => a.ways.flatMap fun x => b.ways.map fun y => .seq x y
  | .alt a b => a.ways ++ b.ways
  | .marked mark inner => inner.ways.map (.marked mark)
  | r => [r]

/-! ### Marks -/

/-- The marks around a part of a rule. -/
structure Context where
  weight : Option Int := none
  side : Option Side := none
  name : Option String := none
  role : Option String := none

/-- The marks around the inside of a marked rule. -/
def Context.within (c : Context) : Mark → Context
  | .weight n => { c with weight := some n }
  | .grouped n side => { c with weight := some n, side := some side }
  | .merit _ => c
  | .named name => { c with name := some name }
  | .role role => { c with role := some role }

/-- The steps with the last one changed. -/
def mapLast (f : Step → Step) (steps : List Step) : List Step :=
  match steps.reverse with
  | [] => []
  | s :: rest => (f s :: rest).reverse

/-- The steps of a rule without choices. The weight and the side of a marked part hold up to its
last symbol; that one has them only if it is the last of the whole rule. -/
def Rule.steps (symbolOf : Rule → Option Symbol) (atEnd : Bool) (c : Context) :
    Rule → List Step
  | .seq a b => a.steps symbolOf false c ++ b.steps symbolOf atEnd c
  | .marked mark inner =>
    let steps := inner.steps symbolOf atEnd (c.within mark)
    if atEnd then steps
    else match mark with
      | .weight _ => mapLast (fun s => { s with weight := c.weight }) steps
      | .grouped _ _ => mapLast (fun s => { s with weight := c.weight, side := c.side }) steps
      | _ => steps
  | r => match symbolOf r with
    | some symbol => [⟨symbol, c.weight, c.side, c.name, c.role⟩]
    | none => []

/-- The merit of a rule without choices: that of the weightiest of its marks. -/
def Rule.merit : Rule → Int
  | .seq a b => if a.merit.natAbs < b.merit.natAbs then b.merit else a.merit
  | .marked (.merit n) inner => if n.natAbs < inner.merit.natAbs then inner.merit else n
  | .marked _ inner => inner.merit
  | _ => 0

/-! ### All productions of a language -/

/-- The terminals and nonterminals of a language. -/
structure Productions where
  terminals : Array Terminal
  nonterminals : Array Nonterminal
  /-- The terminals that may stand anywhere. -/
  extras : List Nat

namespace Productions

/-- The step that takes the place of the inlined step `outer`. -/
def inlineStep (outer : Step) (isLast : Bool) (s : Step) : Step :=
  { s with
    name := outer.name.or s.name
    role := outer.role.or s.role
    weight := if isLast then s.weight.or outer.weight else s.weight
    side := if isLast then s.side.or outer.side else s.side }

/-- The steps that take the place of the inlined step `outer`. -/
def inlineSteps (outer : Step) : List Step → List Step
  | [] => []
  | [s] => [inlineStep outer true s]
  | s :: rest => inlineStep outer false s :: inlineSteps outer rest

/-- The productions with the inlined nonterminals replaced; the fuel bounds how deeply these are
nested. -/
def inlined (isInlined : Symbol → Bool) (productionsOf : Symbol → List Production) :
    Nat → Production → List Production
  | 0, p => [p]
  | fuel + 1, p =>
    p.steps.foldr (fun s rest =>
      if isInlined s.symbol then
        (productionsOf s.symbol).flatMap fun inner =>
          (inlined isInlined productionsOf fuel
            ⟨inner.merit, inlineSteps s inner.steps⟩).flatMap fun q =>
            rest.map fun r => ⟨if r.merit.natAbs < q.merit.natAbs then q.merit else r.merit,
              q.steps ++ r.steps⟩
      else rest.map fun r => { r with steps := s :: r.steps }) [⟨p.merit, []⟩]

end Productions

/-- A rule without repetitions; it has a standing unless it stands for a repetition. -/
structure PlainRule where
  name : String
  standing : Option Standing
  rule : Rule

/-- The rules of the language without repetitions, those that stand for repetitions last. -/
def Language.plainRules (l : Language) : List PlainRule :=
  let start : List PlainRule × Repetitions := ([], [])
  let (rules, known) := l.definitions.foldl (fun (rules, known) d =>
    let (rule, known) := d.rule.withoutRepetitions known
    (rules ++ [⟨d.name, some d.standing, rule⟩], known)) start
  rules ++ known.map fun (each, name) =>
    ⟨name, none, .alt (.seq (.rule name) (.rule name)) each⟩

/-- The terminals and nonterminals of the language. -/
def Language.productions (l : Language) : Productions :=
  let rules := l.plainRules
  let symbolOf : Rule → Option Symbol
    | .token name => (l.terminals.findIdx? (·.name == name)).map fun n => .terminal (n + 1)
    | .rule name => (rules.findIdx? (·.name == name)).map .nonterminal
    | _ => none
  let flat : Array Nonterminal := rules.toArray.map fun r =>
    let all : List Production := r.rule.ways.map fun way =>
      ⟨way.merit, way.steps symbolOf true {}⟩
    ⟨r.name, r.standing, all.eraseDups⟩
  let isInlined : Symbol → Bool
    | .nonterminal n => (flat[n]?.map (·.standing == some .inlined)).getD false
    | .terminal _ => false
  let productionsOf : Symbol → List Production
    | .nonterminal n => (flat[n]?.map (·.productions)).getD []
    | .terminal _ => []
  { terminals := l.terminals.toArray
    nonterminals := flat.map fun n =>
      { n with productions :=
          (n.productions.flatMap (Productions.inlined isInlined productionsOf 4)).eraseDups }
    extras := l.extras.filterMap fun name =>
      (l.terminals.findIdx? (·.name == name)).map (· + 1) }

end ViewBinding.Parsing
