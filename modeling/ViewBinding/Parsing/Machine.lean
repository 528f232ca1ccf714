import ViewBinding.Parsing.Subtree

/-!
# Readings in parallel

A reader follows several readings of a text at once. What they have read is kept in one graph: a
`ViewBinding.Parsing.Joint` is a state at a place of the text, and its links lead back to the
joints before it, each with the subtree in between. A `ViewBinding.Parsing.Head` is the end of one
reading. Readings that come to the same state at the same place with the same cost go on as one
(`ViewBinding.Parsing.Machine.merge`), so that one joint may have several links; and where nodes
are put together, all ways back are walked (`ViewBinding.Parsing.Machine.walk`).

All operations work on a `ViewBinding.Parsing.Machine`. Heads are given by their numbers; a head
that is taken away lets those behind it move up.
-/

namespace ViewBinding.Parsing

/-- A token that has been looked at. -/
structure Lookahead where
  tree : Subtree
  /-- The terminal; none for characters at which no token starts. -/
  terminal : Option Nat
  /-- Whether it is spelled like a keyword and a name. -/
  isWord : Bool
  /-- The state for which it was looked at. -/
  state : Nat
deriving Inhabited

/-- A way back from a joint. The link to where a fault begins has no subtree. -/
structure Link where
  joint : Nat
  tree : Option Subtree
deriving Inhabited

/-- A state at a place of the text. -/
structure Joint where
  state : Nat
  place : Nat := 0
  cost : Nat := 0
  /-- The number of nodes read. -/
  count : Nat := 0
  merit : Int := 0
  links : List Link := []
deriving Inhabited

/-- A joint that has been passed, at which reading may go on after a fault. -/
structure Recall where
  place : Nat
  /-- How many subtrees back it is. -/
  depth : Nat
  state : Nat
deriving Inhabited

/-- Whether a reading goes on. -/
inductive Status
  | active
  | halted
  /-- The reading has come to a token at which there is no way to go on. -/
  | waiting
deriving DecidableEq, Repr, Inhabited

/-- The end of a reading. -/
structure Head where
  joint : Nat
  status : Status := .active
  /-- The number of nodes that had been read at the last fault. -/
  countAtFault : Nat := 0
  /-- The joints at which reading may go on after the fault. -/
  recalls : Option (List Recall) := none
  look : Option Lookahead := none
deriving Inhabited

/-- All readings of a text. -/
structure Machine where
  joints : Array Joint
  heads : Array Head
  /-- The token looked at last, with the place where it was looked for. -/
  cache : Option (Nat × Lookahead) := none
  /-- The best complete reading. -/
  finished : Option Subtree := none
  /-- The number of complete readings. -/
  accepted : Nat := 0

/-- What readings depend on: the table of the language and the text. -/
structure Setting where
  table : Table
  page : Page

namespace Machine

/-- How a reading compares to another one. -/
inductive Preference
  | takeLeft
  | preferLeft
  | none
  | preferRight
  | takeRight
deriving DecidableEq, Repr

/-- The most readings that are followed. -/
def maxHeads : Nat := 6

/-- The most readings beyond that while nodes are put together. -/
def spareHeads : Nat := 4

/-- The most links of a joint. -/
def maxLinks : Nat := 8

/-- The most ways back that are walked at once. -/
def maxWalkers : Nat := 64

/-- How far back joints are recalled after a fault. -/
def maxDepth : Nat := 16

/-- The difference in cost, times the number of nodes read since the fault, from which on a reading
is given up for another one. -/
def maxDifference : Nat := 1800

/-! ### Joints and heads -/

/-- The joint of that number. -/
def joint (m : Machine) (n : Nat) : Joint :=
  m.joints.getD n default

/-- The head of that number. -/
def head (m : Machine) (n : Nat) : Head :=
  m.heads.getD n default

/-- The joint at which a reading ends. -/
def tip (m : Machine) (n : Nat) : Joint :=
  m.joint (m.head n).joint

/-- Changes a head. -/
def modifyHead (m : Machine) (n : Nat) (f : Head → Head) : Machine :=
  { m with heads := m.heads.modify n f }

/-- Takes a head away. -/
def removeHead (m : Machine) (n : Nat) : Machine :=
  { m with heads := m.heads.eraseIdxIfInBounds n }

/-- Adds a head. -/
def addHead (m : Machine) (h : Head) : Machine :=
  { m with heads := m.heads.push h }

/-- Gives up a reading. -/
def halt (m : Machine) (n : Nat) : Machine :=
  m.modifyHead n fun h => { h with status := .halted }

/-- The joint after another one, with a subtree in between. -/
def jointAfter (m : Machine) (back : Nat) (tree : Option Subtree) (state : Nat) : Joint :=
  let b := m.joint back
  let links : List Link := [⟨back, tree⟩]
  match tree with
  | none => { b with state, links }
  | some s =>
    { state, links
      place := b.place + s.total.chars
      cost := b.cost + s.cost
      count := b.count + s.weight
      merit := b.merit + s.merit }

/-- Lets a reading go on to a state with a subtree; without one a fault begins. -/
def push (m : Machine) (n : Nat) (tree : Option Subtree) (state : Nat) : Machine :=
  let j := m.jointAfter (m.head n).joint tree state
  let number := m.joints.size
  let m := { m with joints := m.joints.push j }
  m.modifyHead n fun h =>
    { h with
      joint := number
      countAtFault := if tree.isNone then j.count else h.countAtFault }

/-- Puts the head `a` in the place of the head `b`. -/
def renumber (m : Machine) (a b : Nat) : Machine :=
  if a = b then m
  else
    let h := m.head a
    let old := m.head b
    let h := if h.recalls.isNone then { h with recalls := old.recalls } else h
    (m.modifyHead b fun _ => h).removeHead a

/-! ### Merging -/

/-- Whether two links lead back by trees that may stand for one another. -/
def areLike : Option Subtree → Option Subtree → Bool
  | none, none => true
  | some a, some b => a.isLike b
  | _, _ => false

/-- Whether two joints are the same state at the same place with the same cost. -/
def areSame (a b : Joint) : Bool :=
  a.state == b.state && a.place == b.place && a.cost == b.cost

/-- The merit of a link, all before it included. -/
def linkMerit (m : Machine) (l : Link) : Int :=
  (m.joint l.joint).merit + (l.tree.map (·.merit)).getD 0

/-- Adds a link to the joint. Where a link like it is there already, their joints are merged or
the one with more merit is kept. -/
def addLink : Nat → Nat → Link → Machine → Machine
  | 0, _, _, m => m
  | fuel + 1, n, link, m =>
    if link.joint = n then m
    else
      let j := m.joint n
      let matching := j.links.findIdx? fun l =>
        areLike l.tree link.tree
          && (l.joint == link.joint || areSame (m.joint l.joint) (m.joint link.joint))
      match matching with
      | some i =>
        let l := j.links.getD i default
        if l.joint = link.joint then
          match l.tree, link.tree with
          | some old, some new =>
            if old.merit < new.merit then
              let j := { j with links := j.links.set i link, merit := m.linkMerit link }
              { m with joints := m.joints.set! n j }
            else m
          | _, _ => m
        else
          let m := (m.joint link.joint).links.foldl (fun m back => addLink fuel l.joint back m) m
          let merit := m.linkMerit link
          { m with joints := m.joints.modify n fun j =>
              if j.merit < merit then { j with merit } else j }
      | none =>
        if maxLinks ≤ j.links.length then m
        else
          let count := (m.joint link.joint).count + (link.tree.map (·.weight)).getD 0
          let j := { j with
            links := j.links ++ [link]
            count := max j.count count
            merit := max j.merit (m.linkMerit link) }
          { m with joints := m.joints.set! n j }

/-- Whether two readings can go on as one. -/
def canMerge (m : Machine) (a b : Nat) : Bool :=
  (m.head a).status == .active && (m.head b).status == .active && areSame (m.tip a) (m.tip b)

/-- Lets two readings go on as the first one, if they can. Tells whether they can. -/
def merge (m : Machine) (a b : Nat) : Bool × Machine :=
  if m.canMerge a b then
    let n := (m.head a).joint
    let m := (m.tip b).links.foldl (fun m l => addLink (m.joints.size + 1) n l m) m
    let m := if (m.joint n).state = 0 then
        m.modifyHead a fun h => { h with countAtFault := (m.joint n).count }
      else m
    (true, m.removeHead b)
  else (false, m)

/-- Merges the reading into the first of those numbered from `start` up to `stop` that it can go
on with, `except` left out. Tells whether there is one. -/
def mergeInto (m : Machine) (start stop : Nat) (skipped : Option Nat) (n : Nat) : Bool × Machine :=
  match ((List.range stop).drop start).find? fun j => skipped != some j && m.canMerge j n with
  | some j => m.merge j n
  | none => (false, m)

/-! ### Walking back -/

/-- A walk back from the end of a reading. -/
structure Walker where
  joint : Nat
  /-- The subtrees walked over, the first one of the text first. -/
  trees : List Subtree := []
  /-- How many of them may not stand anywhere. -/
  count : Nat := 0
deriving Inhabited

/-- The walk with one link more. -/
def Walker.crossing (w : Walker) (l : Link) : Walker where
  joint := l.joint
  trees := match l.tree with
    | some s => s :: w.trees
    | none => w.trees
  count := match l.tree with
    | some s => if s.isExtra then w.count else w.count + 1
    | none => w.count + 1

/-- A walk that came to its goal: what it walked over, and the head that was made for the joint
where it ended. -/
structure Slice where
  trees : List Subtree
  head : Nat
deriving Inhabited

/-- What a walk is to do at a joint. -/
structure Decision where
  /-- Whether the walk has come to its goal. -/
  isGoal : Bool
  /-- Whether the walk ends here. -/
  isEnd : Bool

/-- Adds a slice next to those that end at the same joint; if there are none, a head is made. -/
def addSlice (base joint : Nat) (trees : List Subtree) (slices : List Slice) (m : Machine) :
    List Slice × Machine :=
  match (slices.reverse.find? fun s => (m.head s.head).joint == joint).map (·.head) with
  | some n =>
    let behind := slices.reverse.takeWhile fun s => (m.head s.head).joint != joint
    (slices.take (slices.length - behind.length) ++ [⟨trees, n⟩] ++ behind.reverse, m)
  | none =>
    (slices ++ [⟨trees, m.heads.size⟩],
      m.addHead { joint, countAtFault := (m.head base).countAtFault })

/-- One step of each of the walks. `kept` and `added` are the walks that go on, the last one first.
-/
def walkRound {σ : Type} (decide : Machine → σ → Walker → σ × Decision) (base : Nat) :
    List Walker → List Walker → List Walker → σ → List Slice → Machine →
      List Walker × σ × List Slice × Machine
  | [], kept, added, state, slices, m => (kept.reverse ++ added.reverse, state, slices, m)
  | w :: rest, kept, added, state, slices, m =>
    let (state, decision) := decide m state w
    let links := (m.joint w.joint).links
    let (slices, m) :=
      if decision.isGoal then addSlice base w.joint w.trees slices m else (slices, m)
    match decision.isEnd, links with
    | false, first :: others =>
      let room := maxWalkers - (kept.length + 1 + rest.length + added.length)
      let added := ((others.take room).map w.crossing).reverse ++ added
      walkRound decide base rest (w.crossing first :: kept) added state slices m
    | _, _ => walkRound decide base rest kept added state slices m

/-- Walks back along all links until all walks have ended; the fuel bounds their length. -/
def walkAll {σ : Type} (decide : Machine → σ → Walker → σ × Decision) (base : Nat) :
    Nat → List Walker → σ → List Slice → Machine → σ × List Slice × Machine
  | 0, _, state, slices, m => (state, slices, m)
  | _, [], state, slices, m => (state, slices, m)
  | fuel + 1, walkers, state, slices, m =>
    let (walkers, state, slices, m) := walkRound decide base walkers [] [] state slices m
    walkAll decide base fuel walkers state slices m

/-- Walks back from the end of a reading. -/
def walk {σ : Type} (m : Machine) (n : Nat) (state : σ)
    (decide : Machine → σ → Walker → σ × Decision) : σ × List Slice × Machine :=
  walkAll decide n (m.joints.size + 2) [{ joint := (m.head n).joint }] state [] m

/-- All ways back by so many subtrees. -/
def popCount (m : Machine) (n count : Nat) : List Slice × Machine :=
  (m.walk n () fun _ _ w => ((), ⟨w.count == count, w.count == count⟩)).2

/-- All ways back to the start of the text. -/
def popAll (m : Machine) (n : Nat) : List Slice × Machine :=
  (m.walk n () fun m _ w => ((), ⟨(m.joint w.joint).links.isEmpty, false⟩)).2

/-- Takes the fault off with which a reading ends, if it ends with one. -/
def popFault (m : Machine) (n : Nat) : Option Subtree × Machine :=
  let isFault (s : Option Subtree) : Bool := (s.map (·.label)) == some .fault
  if (m.tip n).links.any fun l => isFault l.tree then
    let (_, slices, m) := m.walk n false fun _ found w =>
      match w.trees with
      | [] => (found, ⟨false, false⟩)
      | s :: _ =>
        if !found && s.label == .fault then (true, ⟨true, true⟩) else (found, ⟨false, true⟩)
    match slices with
    | [] => (none, m)
    | s :: _ => (s.trees.head?, m.renumber s.head n)
  else (none, m)

/-- The joints that a reading has passed, the last one first. Of joints in one state at one depth
only one is recalled. -/
def recallsOf (m : Machine) (n : Nat) : List Recall :=
  let (found, _, _) := m.walk n ([] : List Recall) fun m found w =>
    let j := m.joint w.joint
    if maxDepth < w.count then (found, ⟨false, true⟩)
    else if (found.takeWhile fun r => w.count ≤ r.depth).any fun r =>
        r.depth == w.count && r.state == j.state then (found, ⟨false, false⟩)
    else (⟨j.place, w.count, j.state⟩ :: found, ⟨false, false⟩)
  found.reverse

/-! ### Comparing readings -/

/-- What a reading costs. A fault that has just begun is counted. -/
def costOf (m : Machine) (n : Nat) : Nat :=
  let j := m.tip n
  let isNew := match j.links with
    | [] => true
    | l :: _ => l.tree.isNone
  if (m.head n).status == .waiting || (j.state = 0 && isNew) then j.cost + Subtree.penalty
  else j.cost

/-- Keeps the number of nodes at the last fault within the number of nodes read. -/
def settleCount (m : Machine) (n : Nat) : Machine :=
  let count := (m.tip n).count
  m.modifyHead n fun h => { h with countAtFault := min h.countAtFault count }

/-- The number of nodes read since the last fault. -/
def countSince (m : Machine) (n : Nat) : Nat :=
  (m.tip n).count - (m.head n).countAtFault

/-- What readings are compared by. -/
structure Score where
  cost : Nat
  count : Nat
  merit : Int
  isInFault : Bool

/-- How a reading stands. -/
def scoreOf (m : Machine) (n : Nat) : Score :=
  let isWaiting := (m.head n).status == .waiting
  { cost := m.costOf n + if isWaiting then Subtree.nodeCost else 0
    count := m.countSince n
    merit := (m.tip n).merit
    isInFault := isWaiting || (m.tip n).state == 0 }

/-- Which of two readings is better, and whether so much better that the other is given up. -/
def Score.compare (a b : Score) : Preference :=
  if !a.isInFault && b.isInFault then
    if a.cost < b.cost then .takeLeft else .preferLeft
  else if a.isInFault && !b.isInFault then
    if b.cost < a.cost then .takeRight else .preferRight
  else if a.cost < b.cost then
    if maxDifference < (b.cost - a.cost) * (1 + a.count) then .takeLeft else .preferLeft
  else if b.cost < a.cost then
    if maxDifference < (a.cost - b.cost) * (1 + b.count) then .takeRight else .preferRight
  else if b.merit < a.merit then .preferLeft
  else if a.merit < b.merit then .preferRight
  else .none

/-- Whether one of the readings is so much better than the reading `n`, which stands like `own`,
that this one is not worth going on. -/
def hasBetterAmong (n : Nat) (own : Score) : List Nat → Machine → Bool × Machine
  | [], m => (false, m)
  | i :: rest, m =>
    if i = n || (m.head i).status != .active || (m.tip i).place < (m.tip n).place then
      hasBetterAmong n own rest m
    else
      let m := m.settleCount i
      match own.compare (m.scoreOf i) with
      | .takeRight => (true, m)
      | .preferRight => if m.canMerge i n then (true, m) else hasBetterAmong n own rest m
      | _ => hasBetterAmong n own rest m

/-- Whether there is a reading so much better that the reading `n` is not worth going on at the
given cost. -/
def hasBetter (m : Machine) (n : Nat) (isInFault : Bool) (cost : Nat) : Bool × Machine :=
  if (m.finished.map fun s => decide (s.cost ≤ cost)).getD false then (true, m)
  else
    let m := m.settleCount n
    hasBetterAmong n ⟨cost, m.countSince n, (m.tip n).merit, isInFault⟩
      (List.range m.heads.size) m

end Machine

end ViewBinding.Parsing
