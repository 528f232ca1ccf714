import ViewBinding.Parsing.Canonical
import ViewBinding.Parsing.Rivals

/-!
# Merging states

Most canonical states with the same items differ only in what may follow. They are merged unless
they want different things for one token, or a token of the one could be taken for a token of the
other (`ViewBinding.Parsing.Merging.clashes`); states that lead to states that stay apart stay
apart as well. A state in which nothing can be done but to rename the last node is passed over.

Some keywords are spelled like names. A reader looks for a name first and only then asks whether
it is one of these keywords and whether the keyword is possible where it stands.
-/

namespace ViewBinding.Parsing

namespace Merging

/-! ### Tokens of states -/

/-- Whether the state has something to do with the terminal. -/
def isWanted (s : State) (terminal : Nat) : Bool :=
  !(s.actions.getD terminal []).isEmpty

/-- The terminals with which the state has something to do, in ascending order. -/
def tokenList (s : State) : List Nat :=
  (List.range s.actions.size).filter (isWanted s)

/-- The set of the terminals with which the state has something to do. -/
def tokensOf (s : State) : Nat :=
  (tokenList s).foldl (fun set terminal => set ||| terminalSet terminal) 0

/-- For each terminal, the tokens of the states among whose tokens it is. -/
def company (count : Nat) (states : Array State) : Array Nat :=
  states.foldl (fun unions s =>
    let set := tokensOf s
    (tokenList s).foldl (fun (unions : Array Nat) terminal =>
      unions.modify terminal (· ||| set)) unions) (Array.replicate count 0)

/-- What is known of the kinds of tokens. -/
structure Tokens where
  rivals : Rivals
  /-- The terminal of names. -/
  name : Nat
  /-- The terminals that are possible in some state together with each terminal. -/
  together : Array Nat
  /-- The keywords that are spelled like names. -/
  keywords : Nat
  /-- The terminals that are read where there is no way to go on. -/
  readable : Nat

/-- The keywords that are spelled like names. A keyword has to relate to the other kinds as names
do wherever it is possible and a name is not. -/
def keywordsOf (rivals : Rivals) (name : Nat) (apart : Array Nat) : Nat :=
  let all := List.range rivals.table.size
  let spelled := all.filter fun t =>
    t ≠ name && (rivals.get t name).isPreferred && !(rivals.get t name).differs
  let unique := spelled.filter fun t =>
    !spelled.any fun other => other ≠ t && (rivals.get other t).isPreferred
  let fitting := unique.filter fun t => all.all fun other =>
    spelled.contains other || !(apart.getD t 0).testBit other
      || rivals.get t other == rivals.get name other
  fitting.foldl (fun set t => set ||| terminalSet t) 0

/-- The terminals that are read where there is no way to go on: those that no kind stands in the
way of that is never possible together with them. -/
def readableOf (rivals : Rivals) (name keywords : Nat) (together : Array Nat) : Nat :=
  let all := (List.range rivals.table.size).drop 1
  let free := all.filter fun t => all.all fun other =>
    other = t || (together.getD t 0).testBit other || !rivals.isLonger t other
  let kept := all.filter fun t =>
    free.contains t || keywords.testBit t || t = name
      || !free.any fun other => !(together.getD t 0).testBit other && rivals.conflicts t other
  kept.foldl (fun set t => set ||| terminalSet t) (terminalSet 0)

/-- What the states tell of the kinds of tokens. -/
def Tokens.ofStates (productions : Productions) (rivals : Rivals) (states : Array State) :
    Tokens :=
  let count := productions.terminals.size + 1
  let name := ((productions.terminals.findIdx? (·.isName)).map (· + 1)).getD 0
  let together := company count states
  let keywords := keywordsOf rivals name (company count (states.filter (!isWanted · name)))
  { rivals, name, together, keywords
    readable := readableOf rivals name keywords together }

/-- The terminals that must not be possible in a state besides the terminal, unless both were
before: those that could be taken for it. A keyword is no danger to names. -/
def Tokens.dangers (t : Tokens) : Array Nat :=
  t.rivals.sets fun i j =>
    t.rivals.conflicts i j && !(j == t.name && t.keywords.testBit i)
      && !(i == t.name && t.keywords.testBit j)

/-! ### Groups of states -/

/-- The states in groups that may become one state. -/
structure Groups where
  groups : Array (List Nat)
  /-- The group of each state. -/
  groupOf : Array Nat

/-- The states with the same items in one group. -/
def Groups.ofCores (states : Array State) : Groups :=
  let count := states.foldl (fun n s => max n (s.core + 1)) 0
  let groups := states.toList.zipIdx.foldr (fun (s, n) (groups : Array (List Nat)) =>
    groups.modify s.core (n :: ·)) (Array.replicate count [])
  ⟨groups, states.map (·.core)⟩

/-- The states that can stay with the first one, and then with the next, and so on; and the
others. -/
def sift (apart : Nat → Nat → Bool) : Nat → List Nat → List Nat × List Nat
  | 0, states => (states, [])
  | _, [] => ([], [])
  | fuel + 1, s :: rest =>
    let (out, stay) := rest.partition (apart s)
    let (kept, more) := sift apart fuel stay
    (s :: kept, out ++ more)

/-- Splits each group from the group `n` on into those who can stay together and a new group of
the others. Tells whether there were any. -/
def split (apart : Array Nat → Nat → Nat → Bool) : Nat → Nat → Bool → Groups → Bool × Groups
  | 0, _, changed, g => (changed, g)
  | fuel + 1, n, changed, g =>
    match g.groups[n]? with
    | none => (changed, g)
    | some states =>
      let (kept, out) := sift (apart g.groupOf) states.length states
      if out.isEmpty then split apart fuel (n + 1) changed g
      else
        let groupOf := out.foldl (fun (groupOf : Array Nat) s =>
          groupOf.set! s g.groups.size) g.groupOf
        split apart fuel (n + 1) true ⟨(g.groups.set! n kept).push out, groupOf⟩

/-- Splits until nothing changes. -/
def splitAll (apart : Array Nat → Nat → Nat → Bool) : Nat → Groups → Groups
  | 0, g => g
  | fuel + 1, g =>
    match split apart Canonical.limit 0 false g with
    | (true, g) => splitAll apart fuel g
    | (false, g) => g

/-- Whether the actions differ, when states of one group count as the same. -/
def actionsDiffer (groupOf : Array Nat) : List Action → List Action → Bool
  | [], [] => false
  | .shift s again :: as, .shift t more :: bs =>
    groupOf.getD s 0 != groupOf.getD t 0 || again != more || actionsDiffer groupOf as bs
  | a :: as, b :: bs => a != b || actionsDiffer groupOf as bs
  | _, _ => true

/-- Whether some number below the bound has the property. -/
def anyBelow (p : Nat → Bool) : Nat → Bool
  | 0 => false
  | n + 1 => p n || anyBelow p n

/-- Whether two states want different things for one token, or a token of one of them could be
taken for a token of the other. -/
def clashes (states : Array State) (sets dangers groupOf : Array Nat) (l r : Nat) : Bool :=
  let a := states.getD l default
  let b := states.getD r default
  let left := sets.getD l 0
  let right := sets.getD r 0
  anyBelow (fun terminal =>
    match a.actions.getD terminal [], b.actions.getD terminal [] with
    | [], [] => false
    | [], _ => (dangers.getD terminal 0) &&& left != 0
    | _, [] => (dangers.getD terminal 0) &&& right != 0
    | as, bs => actionsDiffer groupOf as bs) a.actions.size

/-- Where the last of the actions leads, if it takes the token. -/
def target? (actions : List Action) : Option Nat :=
  match actions.getLast? with
  | some (.shift s _) => some s
  | _ => none

/-- Where a state leads: the numbers of symbols, terminals first, and of the states after them, in
the order of the symbols. -/
def paths (s : State) : List (Nat × Nat) :=
  (s.actions.toList.zipIdx.filterMap fun (actions, terminal) =>
    (target? actions).map fun t => (terminal, t))
  ++ s.gotos.toList.zipIdx.filterMap fun (t, n) =>
    if t = 0 then none else some (s.actions.size + n, t)

/-- Whether the paths lead to states of different groups by one symbol. -/
def partWays (groupOf : Array Nat) : List (Nat × Nat) → List (Nat × Nat) → Bool
  | (x, s) :: as, (y, t) :: bs =>
    if x = y then groupOf.getD s 0 != groupOf.getD t 0 || partWays groupOf as bs
    else if x < y then partWays groupOf as ((y, t) :: bs)
    else partWays groupOf ((x, s) :: as) bs
  | _, _ => false
termination_by as bs => as.length + bs.length

/-! ### One state for each group -/

/-- The state with all states that it leads to replaced. -/
def redirect (f : Nat → Nat) (s : State) : State :=
  { s with
    actions := s.actions.map fun actions => actions.map fun
      | .shift t again => .shift (f t) again
      | a => a
    gotos := s.gotos.map fun t => if t = 0 then 0 else f t }

/-- What two states want together. -/
def join (a b : State) : State :=
  { a with
    actions := a.actions.zipWith (fun x y => if x.isEmpty then y else x) b.actions
    gotos := a.gotos.zipWith (fun x y => if x = 0 then y else x) b.gotos }

/-- One state for each group. -/
def merged (states : Array State) (g : Groups) : Array State :=
  g.groups.map fun group =>
    match group.map (fun n => states.getD n default) with
    | [] => default
    | s :: rest => redirect (g.groupOf.getD · 0) (rest.foldl join s)

/-! ### States that rename -/

/-- The nonterminals that nothing is lost of when a node of theirs is left out. -/
def isPassing (productions : Productions) : Array Bool :=
  let renamed := productions.nonterminals.toList.flatMap fun n =>
    n.productions.flatMap fun p => p.steps.filterMap fun s =>
      if s.name.isSome then some s.symbol else none
  productions.nonterminals.mapIdx fun n v =>
    v.standing != some .shown && v.standing != some .family && !renamed.contains (.nonterminal n)

/-- The nonterminal that the last node is put into, if nothing else can be done in the state. -/
def renamed? (passing : Array Bool) (s : State) : Option Nat :=
  let actions := s.actions.toList.flatten.filter (· != .pass)
  match actions with
  | .reduce n 1 _ 0 :: rest =>
    if passing.getD n false && rest.all (fun
      | .reduce m 1 _ 0 => m == n
      | _ => false) then some n else none
  | _ => none

/-- The state with those that rename passed over. -/
def passRenaming (passed : Array (Option Nat)) : Nat → State → State
  | 0, s => s
  | fuel + 1, s =>
    let through (t : Nat) : Nat :=
      match passed.getD t none with
      | none => t
      | some n => if s.gotos.getD n 0 = 0 then t else s.gotos.getD n 0
    let next := redirect through s
    if next.actions == s.actions && next.gotos == s.gotos then s
    else passRenaming passed fuel next

/-! ### States in use -/

/-- The states to which the state leads. -/
def leadsTo (s : State) : List Nat :=
  (s.actions.toList.flatten.filterMap fun
    | .shift t _ => some t
    | _ => none) ++ s.gotos.toList.filter (· != 0)

/-- The states that can be reached from those waiting. -/
def reachable (states : Array State) : Nat → List Nat → Array Bool → Array Bool
  | 0, _, found => found
  | _, [], found => found
  | fuel + 1, n :: waiting, found =>
    if found.getD n true then reachable states fuel waiting found
    else
      reachable states fuel (leadsTo (states.getD n default) ++ waiting) (found.set! n true)

/-- The number of terminals and nonterminals that are possible in a state. -/
def sizeOf (s : State) : Nat :=
  s.actions.countP (!·.isEmpty) + s.gotos.countP (· != 0)

/-- The states that can be reached, renumbered: the first two keep their numbers, the others follow
by falling size. -/
def inUse (states : Array State) : Array State :=
  let found := reachable states 1000000 [0, 1] (states.map fun _ => false)
  let rest := ((List.range states.size).drop 2).filter fun n => found.getD n false
  let sized := rest.map fun n => (sizeOf (states.getD n default), n)
  let order := 0 :: 1 :: (sized.mergeSort fun a b => b.1 ≤ a.1).map (·.2)
  let numbers := order.zipIdx.foldl (fun (numbers : Array Nat) (old, new) =>
    numbers.set! old new) (states.map fun _ => 0)
  order.toArray.map fun n => redirect (numbers.getD · 0) (states.getD n default)

/-- The states after merging. State `0` is where a reader is when there is no way to go on. -/
def ofCanonical (productions : Productions) (tokens : Tokens) (states : Array State) :
    Array State :=
  let states := states.modify 0 fun s =>
    { s with actions := s.actions.mapIdx fun terminal _ =>
        if tokens.readable.testBit terminal then [.recover] else [] }
  let sets := states.map tokensOf
  let dangers := tokens.dangers
  let (_, groups) := split (clashes states sets dangers)
    Canonical.limit 0 false (Groups.ofCores states)
  let paths := states.map paths
  let groups := splitAll (fun groupOf l r =>
    partWays groupOf (paths.getD l []) (paths.getD r [])) 100 groups
  let states := merged states groups
  let passed := states.map (renamed? (isPassing productions))
  inUse (states.map (passRenaming passed 20))

end Merging

end ViewBinding.Parsing
