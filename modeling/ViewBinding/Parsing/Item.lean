import Std.Data.HashMap
import ViewBinding.Parsing.Production

/-!
# Items

An item is a production that has been read up to one of its steps; where a reader is in a text is
described by a set of items. Items that differ only in what lies behind them, and not in what may
follow or in what is made of them, are the same item: `ViewBinding.Parsing.Items.ofProductions`
numbers the items of a language in that sense.

The terminals with which something may go on are a set of terminals, which is a number with one
bit per terminal.
-/

namespace ViewBinding.Parsing

/-- Repeats a step until it changes nothing; the fuel bounds how often. -/
def settle {α : Type} [BEq α] (step : α → α) : Nat → α → α
  | 0, a => a
  | fuel + 1, a =>
    let b := step a
    if b == a then a else settle step fuel b

/-- The set of a single terminal. -/
def terminalSet (terminal : Nat) : Nat :=
  Nat.shiftLeft 1 terminal

/-- The terminals of the set, in ascending order. -/
def terminalsIn (count set : Nat) : List Nat :=
  (List.range count).filter set.testBit

/-- What becomes of the children of a node, by their number: the names that they are given, their
roles, and the hidden nonterminals with roles of their own. -/
structure Shape where
  names : List (Option String)
  roles : List (Nat × String)
  inner : List (Nat × Nat)
deriving DecidableEq, Repr, Inhabited

/-- Something that a reader does. -/
inductive Action
  /-- Takes the token and goes to the state; `isAgain` tells that the token goes on a repetition
  that could also be put together first. -/
  | shift (state : Nat) (isAgain : Bool)
  /-- Takes the token and stays: it may stand anywhere. -/
  | pass
  /-- Puts the last `count` nodes together to one of the nonterminal. -/
  | reduce (nonterminal count : Nat) (merit : Int) (shape : Nat)
  /-- Ends with the text read. -/
  | accept
  /-- Deals with a token at which there is no way to go on. -/
  | recover
deriving DecidableEq, Repr, Inhabited

/-- An item. -/
structure Item where
  nonterminal : Nat
  /-- How many steps have been read. -/
  position : Nat
  /-- The symbol that comes next. -/
  next : Option Symbol
  /-- The terminals with which what comes after the next symbol may start; none if nothing
  does. -/
  behind : Option Nat
  /-- The item with one step more read. -/
  successor : Nat
  /-- The weight of the step read last. -/
  weight : Int
  /-- The side of the step read last. -/
  side : Option Side
  /-- What to do when all steps have been read. -/
  action : Action
deriving Inhabited

/-- What tells an item from others. -/
structure Item.Key where
  position : Nat
  nonterminal : Nat
  merit : Int
  size : Nat
  weight : Option Int
  side : Option Side
  /-- The symbols read, if one of them has roles of its own. -/
  symbols : Option (List Symbol)
  /-- The names and roles of the symbols read. -/
  marks : List (Option String × Option String)
  rest : List Step
deriving DecidableEq, Hashable

/-- An item that every occurrence of a nonterminal adds to a set of items: the terminals that may
follow it there, and whether what follows the occurrence may follow it as well. -/
structure Addition where
  item : Nat
  ahead : Nat
  isLast : Bool
deriving Inhabited

/-- All items of a language. -/
structure Items where
  productions : Productions
  items : Array Item
  /-- The items that an occurrence of a nonterminal adds. -/
  additions : Array (Array Addition)
  /-- The terminals with which a nonterminal may start. -/
  first : Array Nat
  /-- The terminals with which a nonterminal may end. -/
  last : Array Nat
  shapes : Array Shape
  /-- The item at the start of a text. -/
  start : Nat

namespace Items

/-! ### Properties of nonterminals -/

/-- The set of terminals of a symbol, when the sets of the nonterminals are known. -/
def setOf (sets : Array Nat) : Symbol → Nat
  | .terminal n => terminalSet n
  | .nonterminal n => sets.getD n 0

/-- The terminals with which the nonterminals may start, or end: `edge` picks the step at that
edge of a production. -/
def edges (edge : List Step → Option Step) (nonterminals : Array Nonterminal) : Array Nat :=
  settle (fun sets => nonterminals.map fun n =>
    n.productions.foldl (fun set p =>
      match edge p.steps with
      | some s => set ||| setOf sets s.symbol
      | none => set) 0) (nonterminals.size + 1) (nonterminals.map fun _ => 0)

/-- Whether the step is a hidden nonterminal among those marked. -/
def isInner (nonterminals : Array Nonterminal) (marked : Array Bool) (s : Step) : Bool :=
  match s.symbol with
  | .terminal _ => false
  | .nonterminal n =>
    s.name.isNone && marked.getD n false && (nonterminals[n]?.map (!·.isShown)).getD false

/-- For each nonterminal, whether its productions give roles, directly or inside hidden
nonterminals. -/
def withRoles (nonterminals : Array Nonterminal) : Array Bool :=
  settle (fun marked => nonterminals.map fun n =>
    n.productions.any fun p => p.steps.any fun s =>
      s.role.isSome || isInner nonterminals marked s) (nonterminals.size + 1)
    (nonterminals.map fun _ => false)

/-- What becomes of the children in a production. -/
def shapeOf (isInner : Step → Bool) (steps : List Step) : Shape where
  names := ((steps.map (·.name)).reverse.dropWhile Option.isNone).reverse
  roles := steps.zipIdx.filterMap fun (s, n) => s.role.map fun role => (n, role)
  inner := steps.zipIdx.filterMap fun (s, n) =>
    match s.symbol with
    | .nonterminal v => if isInner s then some (n, v) else none
    | .terminal _ => none

/-! ### All items -/

/-- The key of the production with `position` steps read. -/
def keyOf (isInner : Step → Bool) (nonterminal : Nat) (p : Production) (position : Nat) :
    Item.Key :=
  let read := p.steps.take position
  let last := read.getLast?
  { position, nonterminal
    merit := p.merit
    size := p.steps.length
    weight := last.bind (·.weight)
    side := last.bind (·.side)
    symbols := if read.any isInner then some (read.map (·.symbol)) else none
    marks := read.map fun s => (s.name, s.role)
    rest := p.steps.drop position }

/-- All ways to read productions up to a step, those with fewer steps read first. -/
def occurrences (nonterminals : Array Nonterminal) : List (Nat × Production × Nat) :=
  let all := nonterminals.toList.zipIdx.flatMap fun (n, number) =>
    n.productions.map fun p => (number, p)
  let longest := all.foldl (fun size (_, p) => max size p.steps.length) 0
  (List.range (longest + 1)).flatMap fun position =>
    all.filterMap fun (number, p) =>
      if position ≤ p.steps.length then some (number, p, position) else none

/-- The items that the occurrences of nonterminals add: the nonterminals in front of which a
reader may be when it is in front of one of the waiting ones, each with the terminals that may
follow and whether it may be the last part. -/
def reached (nonterminals : Array Nonterminal) (first : Array Nat) :
    Nat → List (Nat × Nat × Bool) → Array (Option (Nat × Bool)) → Array (Option (Nat × Bool))
  | 0, _, known => known
  | _, [], known => known
  | fuel + 1, (n, ahead, isLast) :: waiting, known =>
    let old := known.getD n none
    let new := match old with
      | none => (ahead, isLast)
      | some (a, l) => (a ||| ahead, l || isLast)
    if old == some new then reached nonterminals first fuel waiting known
    else
      let more := ((nonterminals[n]?.map (·.productions)).getD []).filterMap fun p =>
        match p.steps with
        | [] => none
        | s :: rest =>
          match s.symbol with
          | .terminal _ => none
          | .nonterminal v =>
            match rest with
            | [] => some (v, ahead, isLast)
            | t :: _ => some (v, setOf first t.symbol, false)
      reached nonterminals first fuel (more ++ waiting) (known.set! n (some new))

/-- All items of the productions. -/
def ofProductions (productions : Productions) : Items :=
  let start := productions.nonterminals.size
  let nonterminals := productions.nonterminals.push
    ⟨"", some .shown, [⟨0, [⟨.nonterminal 0, none, none, none, none⟩]⟩]⟩
  let first := edges List.head? nonterminals
  let last := edges List.getLast? nonterminals
  let marked := withRoles nonterminals
  let isInner := isInner nonterminals marked
  let used := nonterminals.map fun n =>
    if n.standing == some .inlined then { n with productions := [] } else n
  let all := occurrences used
  let numbered : Std.HashMap Item.Key Nat × Array (Nat × Production × Nat) :=
    all.foldl (fun (numbers, kept) (n, p, position) =>
      let key := keyOf isInner n p position
      if numbers.contains key then (numbers, kept)
      else (numbers.insert key kept.size, kept.push (n, p, position))) ({}, #[])
  let shapes : List Shape := (⟨[], [], []⟩ :: all.filterMap fun (_, p, position) =>
    if position = p.steps.length then some (shapeOf isInner p.steps) else none).eraseDups
  let items := numbered.2.map fun (n, p, position) =>
    let read := (p.steps.take position).getLast?
    let rest := p.steps.drop position
    { nonterminal := n
      position
      next := rest.head?.map (·.symbol)
      behind := rest.tail.head?.map fun s => setOf first s.symbol
      successor := numbered.1.getD (keyOf isInner n p (position + 1)) 0
      weight := (read.bind (·.weight)).getD 0
      side := read.bind (·.side)
      action :=
        if n = start then .accept
        else .reduce n position p.merit
          ((shapes.idxOf? (shapeOf isInner p.steps)).getD 0) : Item }
  let firstItems (n : Nat) : List Nat :=
    (((used[n]?.map (·.productions)).getD []).map fun p =>
      numbered.1.getD (keyOf isInner n p 0) 0).eraseDups
  let additions := (Array.range nonterminals.size).map fun n =>
    let known := reached nonterminals first 100000 [(n, 0, true)] (nonterminals.map fun _ => none)
    (known.toList.zipIdx.flatMap fun (entry, v) =>
      match entry with
      | none => []
      | some (ahead, isLast) => (firstItems v).map fun item => ⟨item, ahead, isLast⟩).toArray
  { productions, items, additions, first, last
    shapes := shapes.toArray
    start := (firstItems start).headD 0 }

end Items

end ViewBinding.Parsing
