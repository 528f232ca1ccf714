import ViewBinding.Parsing.Item

/-!
# The canonical states

A state of a reader is a set of items, each with the terminals that may follow it. Starting at the
start of a text, `ViewBinding.Parsing.Canonical.ofItems` finds all states that can be reached and
says for each of them what to do with a token and where to go after a nonterminal.

Where a token can be taken and nodes can be put together as well, weights and sides decide:
the alternative of the higher weight is kept, among equal ones the side says which. What they leave
open stays open, and a reader follows all actions.
-/

namespace ViewBinding.Parsing

/-- An item in a state with the terminals that may follow it. -/
structure Entry where
  item : Nat
  ahead : Nat
deriving DecidableEq, Inhabited

instance : Hashable Entry where
  hash e := mixHash (hash e.item) (mixHash (hash e.ahead) (hash (Nat.shiftRight e.ahead 64)))

/-- A state of a reader. -/
structure State where
  /-- The number of the set of items, the terminals left aside. -/
  core : Nat
  /-- What to do, by the terminal of the next token. -/
  actions : Array (List Action)
  /-- The state after a nonterminal; `0` if the nonterminal cannot follow. -/
  gotos : Array Nat
deriving Inhabited

/-- The states found so far. -/
structure Canonical where
  states : Array State
  /-- The items of the states, without those that they add themselves. -/
  kernels : Array (Array Entry)
  numbers : Std.HashMap (Array Entry) Nat
  cores : Std.HashMap (Array Nat) Nat

namespace Canonical

/-! ### Items of a state -/

/-- All items of a state while they are collected: the terminals that may follow, by item, and the
items that are there. -/
structure Closure where
  ahead : Array Nat
  present : Array Nat

/-- Adds an item. -/
def Closure.add (c : Closure) (item ahead : Nat) : Closure :=
  let old := c.ahead.getD item 0
  if old = 0 then ⟨c.ahead.set! item ahead, c.present.push item⟩
  else { c with ahead := c.ahead.set! item (old ||| ahead) }

/-- Adds an item and all that it adds in turn. -/
def Closure.addAll (items : Items) (c : Closure) (e : Entry) : Closure :=
  let i := items.items.getD e.item default
  let added : Array Addition := match i.next with
    | some (.nonterminal n) => items.additions.getD n #[]
    | _ => #[]
  let after := i.behind.getD e.ahead
  let c := added.foldl (fun (c : Closure) a =>
    c.add a.item (if a.isLast then a.ahead ||| after else a.ahead)) c
  c.add e.item e.ahead

/-- All items of the state with the kernel. -/
def closure (items : Items) (blank : Array Nat) (kernel : Array Entry) : Closure :=
  kernel.foldl (Closure.addAll items) ⟨blank, #[]⟩

/-! ### Where to go -/

/-- The items after a symbol, collected by symbol: the terminals first, then the nonterminals. -/
def successors (items : Items) (c : Closure) : Array (Array Entry) :=
  let terminals := items.productions.terminals.size + 1
  let blank : Array (Array Entry) := Array.replicate (terminals + items.additions.size) #[]
  c.present.foldl (fun buckets item =>
    let i := items.items.getD item default
    let entry : Entry := ⟨i.successor, c.ahead.getD item 0⟩
    match i.next with
    | none => buckets
    | some (.terminal n) => buckets.modify n (·.push entry)
    | some (.nonterminal n) => buckets.modify (terminals + n) (·.push entry)) blank

/-- The entries in the order of their items, those of one item put together. -/
def sorted (entries : Array Entry) : Array Entry :=
  (entries.qsort fun a b => a.item < b.item).foldl (fun done e =>
    match done.back? with
    | some last =>
      if last.item = e.item then done.pop.push ⟨e.item, last.ahead ||| e.ahead⟩ else done.push e
    | none => done.push e) #[]

/-- The number of the state with the kernel, which is added if it is new. -/
def stateOf (c : Canonical) (kernel : Array Entry) : Nat × Canonical :=
  match c.numbers[kernel]? with
  | some n => (n, c)
  | none =>
    let n := c.kernels.size
    (n, { c with numbers := c.numbers.insert kernel n, kernels := c.kernels.push kernel })

/-! ### What to do -/

/-- What the completed items of a state want to do with one terminal. -/
structure Wish where
  actions : List Action := []
  weight : Int := 0
  sides : List (Option Side) := []
deriving Inhabited

/-- Adds what a completed item wants. -/
def Wish.add (w : Wish) (i : Item) : Wish :=
  if w.actions.isEmpty || w.weight < i.weight then ⟨[i.action], i.weight, [i.side]⟩
  else if i.weight < w.weight then w
  else { w with actions := w.actions ++ [i.action], sides := w.sides ++ [i.side] }

/-- Whether the item may go on with the terminal after something of it has been read. -/
def goesOnWith (items : Items) (terminal : Nat) (i : Item) : Bool :=
  match i.next with
  | none => false
  | some symbol => 0 < i.position && (Items.setOf items.first symbol).testBit terminal

/-- What to do with the terminal if it can be taken, going to the state `target`, and the completed
items have wishes. `own` are the items of the kernel and `done` are the completed items that
the terminal may follow. -/
def resolve (items : Items) (own done : List Item) (terminal target : Nat) (w : Wish) :
    List Action :=
  let going := own.filter (goesOnWith items terminal)
  let involved := going ++ done
  let repeated := involved.head?.bind fun i =>
    if ((items.productions.nonterminals[i.nonterminal]?).map (·.standing.isNone)).getD false
        && involved.all (·.nonterminal == i.nonterminal) then some i else none
  if repeated.isSome then w.actions ++ [.shift target true]
  else
    let isLess := going.any (·.weight < w.weight)
    let isMore := going.any (w.weight < ·.weight)
    let shift := Action.shift target false
    if isMore && !isLess then [shift]
    else if isLess && !isMore then w.actions
    else if isLess && isMore then w.actions ++ [shift]
    else if w.sides.all (· == some .left) then w.actions
    else if w.sides.all (· == some .right) then [shift]
    else w.actions ++ [shift]

/-- The wishes of the completed items, by terminal. -/
def wishes (items : Items) (c : Closure) : Array Wish :=
  let count := items.productions.terminals.size + 1
  let completed := (c.present.filter fun item =>
    (items.items.getD item default).next.isNone).qsort (· < ·)
  completed.foldl (fun wishes item =>
    (terminalsIn count (c.ahead.getD item 0)).foldl (fun (wishes : Array Wish) terminal =>
      wishes.modify terminal (·.add (items.items.getD item default))) wishes)
    (Array.replicate count {})

/-- The completed items that the terminal may follow. -/
def completedBefore (items : Items) (c : Closure) (terminal : Nat) : List Item :=
  let before := c.present.toList.filter fun item => (c.ahead.getD item 0).testBit terminal
  (before.map fun item => items.items.getD item default).filter (·.next.isNone)

/-- The number of the set of items of the kernel. -/
def coreOf (c : Canonical) (kernel : Array Entry) : Nat × Canonical :=
  let items := kernel.map fun e => e.item
  match c.cores[items]? with
  | some n => (n, c)
  | none =>
    let n := c.cores.size
    (n, { c with cores := c.cores.insert items n })

/-- Finds out what to do with the terminals, where the successors lead. -/
def addActions (items : Items) (kernel : Array Entry) (all : Closure)
    (buckets : Array (Array Entry)) (c : Canonical) : Array (List Action) × Canonical :=
  let count := items.productions.terminals.size + 1
  let wanted := wishes items all
  let own := kernel.toList.map fun e => items.items.getD e.item default
  let (actions, c) := (List.range count).foldl
    (fun (actions, c) terminal =>
      let bucket := buckets.getD terminal #[]
      if bucket.isEmpty then (actions, c)
      else
        let (target, c) := stateOf c (sorted bucket)
        let w := wanted.getD terminal {}
        let resolved :=
          if w.actions.isEmpty then [Action.shift target false]
          else resolve items own (completedBefore items all terminal) terminal target w
        (actions.set! terminal resolved, c))
    ((wanted.map fun w => w.actions : Array (List Action)), c)
  let actions := items.productions.extras.foldl (fun (actions : Array (List Action)) terminal =>
    if (actions.getD terminal []).isEmpty then actions.set! terminal [.pass] else actions) actions
  (actions, c)

/-- Finds out where to go after the nonterminals, where the successors lead. -/
def addGotos (items : Items) (buckets : Array (Array Entry)) (c : Canonical) :
    Array Nat × Canonical :=
  let count := items.productions.terminals.size + 1
  (List.range items.additions.size).foldl
    (fun (gotos, c) n =>
      let bucket := buckets.getD (count + n) #[]
      if bucket.isEmpty then (gotos, c)
      else
        let (target, c) := stateOf c (sorted bucket)
        (gotos.set! n target, c))
    ((Array.replicate items.additions.size 0 : Array Nat), c)

/-- Finds out what to do in the state with the kernel. -/
def addState (items : Items) (blank : Array Nat) (c : Canonical) (kernel : Array Entry) :
    Canonical :=
  let all := closure items blank kernel
  let buckets := successors items all
  let (core, c) := coreOf c kernel
  let (actions, c) := addActions items kernel all buckets c
  let (gotos, c) := addGotos items buckets c
  { c with states := c.states.push ⟨core, actions, gotos⟩ }

/-- Works through the states that are known but not yet worked through; the fuel bounds their
number. -/
def explore (items : Items) (blank : Array Nat) : Nat → Canonical → Canonical
  | 0, c => c
  | fuel + 1, c =>
    match c.kernels[c.states.size]? with
    | none => c
    | some kernel => explore items blank fuel (addState items blank c kernel)

/-- The most states that are looked for. -/
def limit : Nat := 100000

/-- All states that can be reached. State `0` has no items, and state `1` is the start of a
text. -/
def ofItems (items : Items) : Canonical :=
  let blank := items.items.map fun _ => 0
  let start : Canonical := ⟨#[], #[], {}, {}⟩
  let (_, start) := stateOf start #[]
  let (_, start) := stateOf start #[⟨items.start, terminalSet 0⟩]
  explore items blank limit start

end Canonical

end ViewBinding.Parsing
