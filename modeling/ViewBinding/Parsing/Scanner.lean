import ViewBinding.Parsing.Glyph
import ViewBinding.Text.Pattern

/-!
# Reading tokens

A `ViewBinding.Parsing.Terminal` is a kind of tokens with the pattern of its spellings. All kinds
of a language together make one automaton, the `ViewBinding.Parsing.Scanner`. A place of the
automaton is one character of a pattern, taken when that character is read, or the start of a kind
of tokens; a front is the list of the places that the automaton is in at once.

White space may stand in front of a token unless the kind is `isImmediate`: the start of the kind
then stays in the front while white space is read.

Where the characters read so far are a token and could also go on to be another one, the kinds
decide (`ViewBinding.Parsing.Scanner.goesOn`): the longer token is taken, unless the kind of the
shorter one has the higher rank.
-/

namespace ViewBinding.Parsing

open Text

/-- A kind of tokens. -/
structure Terminal where
  name : String
  /-- The spellings. -/
  pattern : Pattern
  /-- Whether the tokens are nodes of the tree. -/
  isShown : Bool := true
  /-- Whether the tokens are names. -/
  isName : Bool := false
  /-- Whether there is one spelling only. -/
  isSpelled : Bool := false
  /-- Whether no white space may stand in front. -/
  isImmediate : Bool := false
  /-- Kinds of a higher rank are preferred. -/
  rank : Nat := 0

namespace Terminal

/-- How specific the kind is: of two kinds of one rank for the same characters the more specific
one is taken. Names are the least specific. -/
def specificity (t : Terminal) : Nat :=
  if t.isName then 0
  else 1 + (if t.isSpelled then 2 else 0) + if t.isImmediate then 1 else 0

end Terminal

/-- The automaton of all kinds of tokens. The arrays are indexed by places; the first places are
the starts of the kinds, in the order of the kinds. -/
structure Scanner where
  terminals : Array Terminal
  /-- The characters that lead to a place. -/
  glyphs : Array Nat
  /-- The kind of tokens to which a place belongs. -/
  owner : Array Nat
  /-- The places that may follow a place. -/
  next : Array (List Nat)
  /-- Whether a token may end at a place. -/
  ends : Array Bool

namespace Scanner

/-! ### From patterns to places -/

/-- What a pattern has become: whether the empty text matches, and the places at which its texts
start and end. -/
structure Part where
  isNullable : Bool
  first : List Nat
  last : List Nat

/-- Lets each of the places be followed by all of `next`. -/
def link (s : Scanner) (places next : List Nat) : Scanner :=
  { s with next := places.foldl (fun all place => all.modify place (· ++ next)) s.next }

/-- Adds the places of a pattern of the kind `kind`. -/
def addPattern (kind : Nat) (s : Scanner) : Pattern → Part × Scanner
  | .none => (⟨false, [], []⟩, s)
  | .empty => (⟨true, [], []⟩, s)
  | .one accepts =>
    let place := s.glyphs.size
    (⟨false, [place], [place]⟩,
      { s with
        glyphs := s.glyphs.push (Glyph.accepted accepts)
        owner := s.owner.push kind
        next := s.next.push []
        ends := s.ends.push false })
  | .seq p q =>
    let (a, s) := addPattern kind s p
    let (b, s) := addPattern kind s q
    (⟨a.isNullable && b.isNullable,
        if a.isNullable then a.first ++ b.first else a.first,
        if b.isNullable then a.last ++ b.last else b.last⟩,
      s.link a.last b.first)
  | .alt p q =>
    let (a, s) := addPattern kind s p
    let (b, s) := addPattern kind s q
    (⟨a.isNullable || b.isNullable, a.first ++ b.first, a.last ++ b.last⟩, s)
  | .star p =>
    let (a, s) := addPattern kind s p
    (⟨true, a.first, a.last⟩, s.link a.last a.first)

/-- Adds the places of a kind, whose start is already there. -/
def addTerminal (s : Scanner) (kind : Nat) (t : Terminal) : Scanner :=
  let (part, s) := addPattern kind s t.pattern
  let s := s.link [kind] part.first
  { s with ends := part.last.foldl (fun ends place => ends.set! place true) s.ends }

/-- The automaton of the kinds. -/
def ofTerminals (terminals : Array Terminal) : Scanner :=
  let starts : Scanner := {
    terminals
    glyphs := terminals.map fun _ => 0
    owner := Array.range terminals.size
    next := terminals.map fun _ => []
    ends := terminals.map fun _ => false }
  terminals.toList.zipIdx.foldl (fun s (t, kind) => s.addTerminal kind t) starts

/-! ### Fronts -/

/-- Whether a place is the start of a kind in front of which white space may stand. -/
def isIdle (s : Scanner) (place : Nat) : Bool :=
  match s.terminals[place]? with
  | some t => !t.isImmediate
  | none => false

/-- The kind of tokens to which a place belongs. -/
def ownerOf (s : Scanner) (place : Nat) : Nat :=
  s.owner.getD place 0

/-- The rank of the kind of tokens to which a place belongs. -/
def rankOf (s : Scanner) (kind : Nat) : Nat :=
  (s.terminals[kind]?.map (·.rank)).getD 0

/-- The specificity of a kind of tokens. -/
def specificityOf (s : Scanner) (kind : Nat) : Nat :=
  (s.terminals[kind]?.map (·.specificity)).getD 0

/-- Whether the kind `a` is preferred to the kind `b` for the same characters. -/
def prefers (s : Scanner) (a b : Nat) : Bool :=
  if s.rankOf a ≠ s.rankOf b then s.rankOf b < s.rankOf a
  else if s.specificityOf a ≠ s.specificityOf b then s.specificityOf b < s.specificityOf a
  else a < b

/-- The kinds of which the characters read are a token. -/
def ended (s : Scanner) (front : List Nat) : List Nat :=
  (front.filter fun place => s.ends.getD place false).map s.ownerOf

/-- The kind of which the characters read are a token; the preferred one if there are several. -/
def kindAt? (s : Scanner) (front : List Nat) : Option Nat :=
  (s.ended front).foldl (fun best kind =>
    match best with
    | none => some kind
    | some other => if s.prefers other kind then some other else some kind) none

/-- A way on from a front: the places reached, whether only white space has been read on the way,
and the highest rank among the kinds that go on. -/
structure Move where
  front : List Nat
  isSpace : Bool
  rank : Nat
deriving Repr

/-- The move to which one place adds what it leads to by reading white space. -/
def Move.idle (m : Move) (place : Nat) : Move :=
  { m with front := if m.front.contains place then m.front else m.front ++ [place] }

/-- The move to which one place adds what it leads to by reading a character of a token. -/
def Move.enter (m : Move) (rank place : Nat) : Move :=
  { front := if m.front.contains place then m.front else m.front ++ [place]
    isSpace := false
    rank := max m.rank rank }

/-- Whether the move is taken from a front whose characters are a token of the kind `kind`;
`hasIdle` tells whether white space may still be read there. -/
def goesOn (s : Scanner) (kind : Nat) (hasIdle : Bool) (m : Move) : Bool :=
  if m.rank ≠ s.rankOf kind then s.rankOf kind < m.rank
  else !m.isSpace && (!hasIdle || m.front.any fun place => s.ownerOf place == kind)

/-- The move from a front by a character of the class. -/
def move? (s : Scanner) (front : List Nat) (glyph : Nat) : Option Move :=
  let m := front.foldl (fun m place =>
    let m := (s.next.getD place []).foldl (fun m q =>
      if (s.glyphs.getD q 0).testBit glyph then m.enter (s.rankOf (s.ownerOf q)) q else m) m
    if s.isIdle place && Glyph.spaces.testBit glyph then m.idle place else m)
    (⟨[], true, 0⟩ : Move)
  if m.front.isEmpty then none else some m

/-! ### Reading -/

/-- What reading for a token comes to. -/
structure Scan where
  /-- The kind of the token found, or that the text is at its end. -/
  found : Option (Option Nat)
  /-- Where the token starts: after the white space read. -/
  start : Nat
  /-- Where the token ends. -/
  stop : Nat
  /-- Where reading stopped. -/
  reach : Nat

/-- Reads on from a front at the character `at` of the text. `atSpace` tells that the end of the
text would be a token here, as long as only white space has been read. -/
def scanFrom (s : Scanner) (glyphs : Array Nat) : Nat → List Nat → Bool → Nat → Scan → Scan
  | 0, _, _, _, scan => scan
  | fuel + 1, front, atSpace, place, scan =>
    let kind := s.kindAt? front
    let scan := match kind with
      | some k => { scan with found := some (some k), stop := place }
      | none => scan
    match glyphs[place]? with
    | none =>
      if atSpace then { scan with found := some none, stop := place, reach := place }
      else { scan with reach := place }
    | some glyph =>
      match s.move? front glyph with
      | none => { scan with reach := place }
      | some m =>
        if kind.all fun k => s.goesOn k (front.any s.isIdle) m then
          let scan := if m.isSpace then { scan with start := place + 1 } else scan
          scanFrom s glyphs fuel m.front (atSpace && m.isSpace) (place + 1) scan
        else { scan with reach := place }

/-- Reads for a token of one of the kinds in whose starts the front consists. -/
def scan (s : Scanner) (glyphs : Array Nat) (front : List Nat) (atSpace : Bool) (place : Nat) :
    Scan :=
  s.scanFrom glyphs (glyphs.size + 1 - place + 1) front atSpace place ⟨none, place, place, place⟩

end Scanner

end ViewBinding.Parsing
