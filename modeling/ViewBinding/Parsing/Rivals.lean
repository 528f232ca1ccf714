import ViewBinding.Parsing.Item

/-!
# Rivals among tokens

Where tokens of several kinds could stand, the characters of the text decide which one is read.
Two kinds are rivals if that is not obvious from their first characters: the same characters may be
a token of either, or a token of the one may start with a token of the other.
`ViewBinding.Parsing.Rivals.ofItems` compares all kinds of a language with each other, by following
the automaton of two kinds at a time. The kinds are numbered as terminals, from `1` on.
-/

namespace ViewBinding.Parsing

/-- How a kind of tokens relates to another one. -/
structure Rivalry where
  /-- Some token is taken although one of the other kind starts with it. -/
  cutsShort : Bool := false
  /-- Some token goes on where one of the other kind has ended. -/
  goesOn : Bool := false
  /-- Some token goes on where one of the other kind has ended, with a character that may also
  come after that one. -/
  goesOnAsNext : Bool := false
  /-- White space may belong to a token or stand in front of the next one. -/
  takesSpace : Bool := false
  /-- Some characters are a token of either kind, and this kind is preferred. -/
  isPreferred : Bool := false
  /-- Some characters belong to this kind only. -/
  differs : Bool := false
deriving DecidableEq, Inhabited

/-- How all kinds of tokens relate to each other: sets of terminals, by terminal. -/
structure Rivals where
  table : Array (Array Rivalry)

namespace Scanner

/-! ### All moves at once -/

/-- A move from a front with the characters by which it is made. -/
structure Branch where
  glyphs : Nat
  move : Move

/-- Adds what a place contributes for some of the characters. -/
def Branch.split (glyphs : Nat) (change : Move → Move) (branches : List Branch) : List Branch :=
  branches.flatMap fun b =>
    let inside := b.glyphs &&& glyphs
    let outside := b.glyphs ^^^ inside
    (if inside = 0 then [] else [⟨inside, change b.move⟩])
      ++ if outside = 0 then [] else [⟨outside, b.move⟩]

/-- All moves from a front. -/
def branches (s : Scanner) (front : List Nat) : List Branch :=
  let all := front.foldl (fun all place =>
    let all := if s.isIdle place then Branch.split Glyph.spaces (·.idle place) all else all
    (s.next.getD place []).foldl (fun all q =>
      Branch.split (s.glyphs.getD q 0) (·.enter (s.rankOf (s.ownerOf q)) q) all) all)
    [(⟨Glyph.all, ⟨[], true, 0⟩⟩ : Branch)]
  all.filter fun b => !b.move.front.isEmpty

/-- The characters with which a token of the kind may start, white space in front included. -/
def startGlyphs (s : Scanner) (kind : Nat) : Nat :=
  (s.next.getD kind []).foldl (fun glyphs q => glyphs ||| s.glyphs.getD q 0)
    (if s.isIdle kind then Glyph.spaces else 0)

end Scanner

namespace Rivals

/-- A comparison of two kinds: what is known of the first and of the second. -/
structure Comparison where
  first : Rivalry := {}
  second : Rivalry := {}

/-- Changes what is known of one of the two. -/
def Comparison.change (c : Comparison) (isFirst : Bool) (f : Rivalry → Rivalry) : Comparison :=
  if isFirst then { c with first := f c.first } else { c with second := f c.second }

/-- Notes what follows from the tokens that end at a front: of two the preferred one. -/
def noteEnds (s : Scanner) (i : Nat) (hasIdle : Bool) (ended : List Nat) (c : Comparison) :
    Comparison :=
  let c := if hasIdle then
      ended.foldl (fun c kind => c.change (kind == i) fun r => { r with takesSpace := true }) c
    else c
  match ended with
  | [a, b] =>
    let kept := if s.prefers a b then a else b
    c.change (kept == i) fun r => { r with isPreferred := true }
  | _ => c

/-- Notes what follows from a move away from a front where a token of the kind `kind` has ended,
and whether the move is made. -/
def noteMove (s : Scanner) (i j : Nat) (after : Array Nat) (hasIdle : Bool) (kind : Nat)
    (b : Scanner.Branch) (c : Comparison) : Comparison × Bool :=
  let other := if kind == i then j else i
  let owners := b.move.front.map s.ownerOf
  if owners.contains other && !owners.contains kind then
    if s.goesOn kind hasIdle b.move then
      (c.change (other == i) fun r =>
        { r with
          goesOn := true
          takesSpace := r.takesSpace || b.move.isSpace || hasIdle
          goesOnAsNext := r.goesOnAsNext || (b.glyphs &&& after.getD kind 0) != 0 }, true)
    else (c.change (kind == i) fun r => { r with cutsShort := true }, false)
  else (c, true)

/-- Follows the two kinds from the waiting fronts on; the fuel bounds the number of fronts. -/
def follow (s : Scanner) (i j : Nat) (after : Array Nat) :
    Nat → List (List Nat) → List (List Nat) → Comparison → Comparison
  | 0, _, _, c => c
  | _, [], _, c => c
  | fuel + 1, front :: waiting, seen, c =>
    let owners := front.map s.ownerOf
    match owners.contains i, owners.contains j with
    | true, true =>
      let hasIdle := front.any s.isIdle
      let c := noteEnds s i hasIdle (s.ended front).eraseDups c
      let kind := s.kindAt? front
      let (c, fronts) := (s.branches front).foldl (fun (c, fronts) b =>
        match kind with
        | none => (c, b.move.front :: fronts)
        | some k =>
          let (c, isMade) := noteMove s i j after hasIdle k b c
          (c, if isMade then b.move.front :: fronts else fronts)) (c, [])
      let new := ((fronts.map fun front => front.mergeSort).eraseDups).filter
        fun front => !seen.contains front
      follow s i j after fuel (new ++ waiting) (new ++ seen) c
    | isFirst, _ =>
      follow s i j after fuel waiting seen
        (c.change isFirst fun r => { r with differs := true })

/-- Compares two kinds of tokens. `after` tells with which characters what follows a token may
start. -/
def compare (s : Scanner) (after : Array Nat) (i j : Nat) : Comparison :=
  follow s i j after 10000 [[i, j]] [[i, j]] {}

/-- With which terminals what follows a terminal may start, by terminal. -/
def following (items : Items) : Array Nat :=
  let count := items.productions.terminals.size + 1
  let all := terminalSet count - 2
  let pairs := items.productions.nonterminals.toList.flatMap fun n =>
    n.productions.flatMap fun p => p.steps.zip p.steps.tail
  let sets := pairs.foldl (fun sets (a, b) =>
    let next := Items.setOf items.first b.symbol
    (terminalsIn count (Items.setOf items.last a.symbol)).foldl (fun (sets : Array Nat) terminal =>
      sets.modify terminal (· ||| next)) sets) (Array.replicate count 0)
  let extras := items.productions.extras.foldl (fun set e => set ||| terminalSet e) 0
  items.productions.extras.foldl (fun sets e => sets.set! e all) (sets.map (· ||| extras))

/-- Compares all kinds of tokens of a language. -/
def ofItems (items : Items) (s : Scanner) : Rivals :=
  let count := items.productions.terminals.size
  let starts := (Array.range count).map s.startGlyphs
  let after := ((following items).extract 1 (count + 1)).map fun set =>
    (terminalsIn (count + 1) set).foldl (fun glyphs terminal =>
      glyphs ||| starts.getD (terminal - 1) 0) 0
  let lower : Array (Array Comparison) := (Array.range count).map fun i =>
    (Array.range i).map fun j => compare s after i j
  let rivalry (i j : Nat) : Rivalry :=
    if j < i then (((lower.getD i #[])[j]?).map (·.first)).getD {}
    else (((lower.getD j #[])[i]?).map (·.second)).getD {}
  ⟨(Array.range (count + 1)).map fun i => (Array.range (count + 1)).map fun j =>
    if i = 0 || j = 0 then {} else rivalry (i - 1) (j - 1)⟩

/-- How the kind `i` relates to the kind `j`. -/
def get (r : Rivals) (i j : Nat) : Rivalry :=
  (r.table.getD i #[]).getD j {}

/-- The set of the kinds that stand in a relation to each kind. -/
def sets (r : Rivals) (related : Nat → Nat → Bool) : Array Nat :=
  (Array.range r.table.size).map fun i =>
    (List.range r.table.size).foldl (fun set j =>
      if related i j then set ||| terminalSet j else set) 0

/-- Whether the kind `i` may stand in the way of the kind `j`. -/
def conflicts (r : Rivals) (i j : Nat) : Bool :=
  let a := r.get i j
  a.goesOnAsNext || a.takesSpace || a.isPreferred

/-- Whether the kinds share characters in any way. -/
def overlaps (r : Rivals) (i j : Nat) : Bool :=
  let a := r.get i j
  a.takesSpace || a.cutsShort || a.isPreferred || a.goesOn

/-- Whether the kind `i` reads more or less than the kind `j` from the same start. -/
def isLonger (r : Rivals) (i j : Nat) : Bool :=
  let a := r.get i j
  (a.goesOnAsNext || a.takesSpace) && !(r.get j i).takesSpace

end Rivals

end ViewBinding.Parsing
