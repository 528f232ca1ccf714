import ViewBinding.Parsing.Page
import ViewBinding.Parsing.Table

/-!
# Trees of a reader

A `ViewBinding.Parsing.Subtree` is what a reader has made of a piece of a text. It does not say
where the piece is, only how long it is, so that one subtree can be part of several readings.

Readings are compared by cost. A token that the text lacks costs
`ViewBinding.Parsing.Subtree.penalty` and `ViewBinding.Parsing.Subtree.absenceCost`. A fault costs
the penalty, one for each byte, `ViewBinding.Parsing.Subtree.nodeCost` for each node and token that
is passed over, and `ViewBinding.Parsing.Subtree.lineCost` for each line break.
-/

namespace ViewBinding.Parsing

/-- What a subtree is. -/
inductive Label
  | terminal (n : Nat)
  | nonterminal (n : Nat)
  /-- A piece of a text that is passed over. -/
  | fault
  /-- A part of a fault that is still growing. -/
  | run
deriving DecidableEq, Repr, Inhabited

/-- What is known of a subtree besides its children. -/
structure Facts where
  label : Label
  /-- The space in front of it. -/
  gap : Measure
  /-- Its length without that space. -/
  size : Measure
  /-- What becomes of its children. -/
  shape : Nat := 0
  /-- Whether it may stand anywhere. -/
  isExtra : Bool := false
  /-- Whether it stands for a token that the text lacks. -/
  isAbsent : Bool := false
  /-- Whether it is a node of the tree. -/
  isShown : Bool := false
  /-- What the faults in it cost. -/
  cost : Nat := 0
  /-- The number of nodes that are children of it in the tree. -/
  shownChildren : Nat := 0
  /-- The number of nodes below it in the tree. -/
  shownBelow : Nat := 0
  merit : Int := 0
deriving Repr, Inhabited

/-- What a reader has made of a piece of a text. -/
inductive Subtree
  | mk (facts : Facts) (children : List Subtree)
deriving Inhabited

namespace Subtree

/-! ### Costs -/

/-- The cost of a fault or an absent token of any kind. -/
def penalty : Nat := 500

/-- The cost of an absent token, besides the penalty. -/
def absenceCost : Nat := 110

/-- The cost of each node and token passed over. -/
def nodeCost : Nat := 100

/-- The cost of each line break passed over. -/
def lineCost : Nat := 30

/-! ### Parts -/

/-- What is known of the subtree. -/
def facts : Subtree → Facts
  | mk facts _ => facts

/-- The children. -/
def children : Subtree → List Subtree
  | mk _ children => children

/-- What the subtree is. -/
def label (s : Subtree) : Label :=
  s.facts.label

/-- Whether the subtree may stand anywhere. -/
def isExtra (s : Subtree) : Bool :=
  s.facts.isExtra

/-- What the faults in the subtree cost. -/
def cost (s : Subtree) : Nat :=
  if s.facts.isAbsent then absenceCost + penalty else s.facts.cost

/-- How a reading with the subtree is preferred to others of the same cost. -/
def merit (s : Subtree) : Int :=
  s.facts.merit

/-- The number of nodes of the tree in the subtree, a part of a fault being one. -/
def weight (s : Subtree) : Nat :=
  s.facts.shownBelow + (if s.facts.isShown then 1 else 0) + if s.label == .run then 1 else 0

/-- The length of the subtree with the space in front. -/
def total (s : Subtree) : Measure :=
  s.facts.gap + s.facts.size

/-- The subtree as one that may stand anywhere, or not. -/
def withExtra (isExtra : Bool) : Subtree → Subtree
  | mk facts children => mk { facts with isExtra } children

/-- The subtree with more merit. -/
def withMerit (more : Int) : Subtree → Subtree
  | mk facts children => mk { facts with merit := facts.merit + more } children

/-! ### Making subtrees -/

/-- Whether the terminal makes nodes of the tree. -/
def isShownTerminal (t : Table) (terminal : Nat) : Bool :=
  terminal = 0 || ((t.productions.terminals[terminal - 1]?).map (·.isShown)).getD false

/-- A token. -/
def token (t : Table) (terminal : Nat) (gap size : Measure) : Subtree :=
  mk { label := .terminal terminal, gap, size
       isExtra := terminal = 0
       isShown := isShownTerminal t terminal } []

/-- A token that the text lacks. -/
def absent (t : Table) (terminal : Nat) : Subtree :=
  mk { label := .terminal terminal, gap := .zero, size := .zero
       isAbsent := true
       isShown := isShownTerminal t terminal } []

/-- Characters at which no token starts. -/
def stray (gap size : Measure) : Subtree :=
  mk { label := .fault, gap, size, isShown := true } []

/-- What a child adds to the cost of a fault. -/
def passedCost (c : Subtree) : Nat :=
  if c.isExtra || (c.label == .fault && c.children.isEmpty) then 0
  else if c.facts.isShown then nodeCost
  else nodeCost * c.facts.shownChildren

/-- What a child adds to the facts of its parent. -/
def addChild (isFault isNamed : Bool) (f : Facts) (c : Subtree) : Facts :=
  let isShown := isNamed || c.facts.isShown
  { f with
    cost := f.cost + (if c.label == .run then 0 else c.cost) + if isFault then passedCost c else 0
    merit := f.merit + c.merit
    shownBelow := f.shownBelow + c.facts.shownBelow + if isShown then 1 else 0
    shownChildren := f.shownChildren + if isShown then 1 else c.facts.shownChildren }

/-- What the children add to the facts of their parent. The names are those of the children that
may not stand anywhere. -/
def addChildren (isFault : Bool) : List (Option String) → List Subtree → Facts → Facts
  | _, [], f => f
  | names, c :: rest, f =>
    let isNamed := !c.isExtra && (names.head?.join).isSome
    addChildren isFault (if c.isExtra then names else names.tail) rest
      (addChild isFault isNamed f c)

/-- The space in front of the children, and their length without it. -/
def extentOf : List Subtree → Measure × Measure
  | [] => (.zero, .zero)
  | c :: rest => (c.facts.gap, rest.foldl (fun size s => size + s.total) c.facts.size)

/-- The subtree of the nonterminal with the children. -/
def node (t : Table) (nonterminal : Nat) (children : List Subtree) (shape : Nat) : Subtree :=
  let (gap, size) := extentOf children
  let names := ((t.shapes[shape]?).map (·.names)).getD []
  let isShown := ((t.productions.nonterminals[nonterminal]?).map (·.isShown)).getD false
  mk (addChildren false names children
    { label := .nonterminal nonterminal, gap, size, shape, isShown }) children

/-- A fault, or a part of one, with what is passed over. -/
def passedOver (label : Label) (children : List Subtree) : Subtree :=
  let (gap, size) := extentOf children
  let facts := addChildren true [] children { label, gap, size, isShown := label == .fault }
  mk { facts with cost := facts.cost + penalty + size.bytes + lineCost * size.lines } children

/-! ### Comparing subtrees -/

/-- A number for each label: terminals, nonterminals, parts of faults, faults. -/
def order (t : Table) : Label → Nat
  | .terminal n => n
  | .nonterminal n => t.productions.terminals.size + 1 + n
  | .run => 65534
  | .fault => 65535

/-- Compares the subtrees from the root down, children from left to right. The fuel bounds the
number of pairs. -/
def compare (t : Table) : Nat → List (Subtree × Subtree) → Ordering
  | 0, _ => .eq
  | _, [] => .eq
  | fuel + 1, (a, b) :: rest =>
    let first := Ord.compare (order t a.label) (order t b.label)
    let second := Ord.compare a.children.length b.children.length
    match first.then second with
    | .eq => compare t fuel (a.children.zip b.children ++ rest)
    | o => o

/-- Whether of two readings of one piece of a text the second one is taken. -/
def prefers (t : Table) (fuel : Nat) (a b : Subtree) : Bool :=
  if a.cost ≠ b.cost then b.cost < a.cost
  else if a.merit ≠ b.merit then a.merit < b.merit
  else if 0 < a.cost then true
  else compare t fuel [(a, b)] == .gt

/-- Whether two subtrees may stand for one another on the way of a reader. -/
def isLike (a b : Subtree) : Bool :=
  a.label == b.label
    && ((0 < a.cost && 0 < b.cost)
      || (a.facts.gap.bytes == b.facts.gap.bytes && a.facts.size.bytes == b.facts.size.bytes
        && a.children.length == b.children.length && a.isExtra == b.isExtra))

/-- The subtrees without those at the end that may stand anywhere, and these. -/
def trimExtras (trees : List Subtree) : List Subtree × List Subtree :=
  let reversed := trees.reverse
  ((reversed.dropWhile (·.isExtra)).reverse, (reversed.takeWhile (·.isExtra)).reverse)

end Subtree

end ViewBinding.Parsing
