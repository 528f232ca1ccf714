import ViewBinding.Parsing.Machine

/-!
# Reading a text

`ViewBinding.Parsing.Setting.read` makes a tree of any text. Each reading
(`ViewBinding.Parsing.Machine`) is advanced token by token. Where a token allows several actions,
readings part; where a reading cannot go on, it waits until the other readings have come as far,
and if none of them goes on without a fault, it deals with the fault:

* a token that the text lacks is supplied, if the text goes on behind it;
* what was read is passed over back to a state in which the token is possible;
* the token itself is passed over.

All three ways are followed, and the cheapest complete reading wins.
-/

namespace ViewBinding.Parsing

namespace Setting

open Machine

/-! ### Looking at tokens -/

/-- The piece of the text between two places as a token of the terminal that was looked for from
`place` on. -/
def tokenOf (s : Setting) (terminal place start stop : Nat) : Subtree :=
  .token s.table terminal (s.page.between place start) (s.page.between start stop)

/-- The token found by a scan in a state. A name is a keyword if it is spelled like one and the
keyword is possible in the state. -/
def lookaheadOf (s : Setting) (state place : Nat) (found : Option Nat) (start stop : Nat) :
    Lookahead :=
  let start := min start stop
  let terminal := match found with
    | none => 0
    | some kind => kind + 1
  if terminal = s.table.name then
    let word := s.table.scanner.scan s.page.glyphs s.table.keywords false start
    match word.found with
    | some (some kind) =>
      let isKeyword := word.stop == stop && !(s.table.actions state (kind + 1)).isEmpty
      let terminal := if isKeyword then kind + 1 else terminal
      ⟨s.tokenOf terminal place start stop, some terminal, true, state⟩
    | _ => ⟨s.tokenOf terminal place start stop, some terminal, false, state⟩
  else ⟨s.tokenOf terminal place start stop, some terminal, false, state⟩

/-- Scans for a token in a mode. At the start of the text a byte order mark is passed over. -/
def scanAt (s : Setting) (mode : Mode) (place : Nat) : Scanner.Scan :=
  let start := if place = 0 then s.page.start else place
  s.table.scanner.scan s.page.glyphs mode.front mode.atEnd start

/-- Passes over characters at which no token starts: from `start` on, up to `stop` so far. -/
def skipFrom (s : Setting) (state place start : Nat) : Nat → Nat → Nat → Lookahead
  | 0, _, stop =>
    ⟨.stray (s.page.between place start) (s.page.between start stop), none, false, state⟩
  | fuel + 1, current, stop =>
    let scan := s.scanAt (s.table.mode 0) current
    let stray : Lookahead :=
      ⟨.stray (s.page.between place start) (s.page.between start stop), none, false, state⟩
    match scan.found with
    | some _ => stray
    | none =>
      if scan.reach ≠ stop then s.skipFrom state place start fuel scan.reach scan.reach
      else if s.page.size ≤ stop then stray
      else s.skipFrom state place start fuel (stop + 1) (stop + 1)

/-- Looks at the next token from a place on, in a state. Where no token that is possible in the
state can be read, any token is looked for. -/
def look (s : Setting) (state place : Nat) : Lookahead :=
  let scan := s.scanAt (s.table.mode state) place
  match scan.found with
  | some found => s.lookaheadOf state place found scan.start scan.stop
  | none =>
    let scan := s.scanAt (s.table.mode 0) place
    match scan.found with
    | some found => s.lookaheadOf state place found scan.start scan.stop
    | none =>
      let stop := if scan.reach ≠ scan.start then scan.reach
        else if s.page.size ≤ scan.start then scan.start
        else scan.start + 1
      if scan.reach = scan.start && s.page.size ≤ scan.start then
        ⟨.stray (s.page.between place scan.start) .zero, none, false, state⟩
      else s.skipFrom state place scan.start (2 * s.page.size + 2) stop stop

/-- What to do with the token in a state. -/
def actionsFor (s : Setting) (state : Nat) (terminal : Option Nat) : List Action :=
  match terminal with
  | some n => s.table.actions state n
  | none => []

/-- Whether a token that was looked at for one state is the token for another one as well. -/
def isReusable (s : Setting) (state : Nat) (look : Lookahead) : Bool :=
  match look.terminal with
  | none => false
  | some terminal =>
    (!(s.table.actions state terminal).isEmpty
        && s.table.modeOf.getD look.state 0 == s.table.modeOf.getD state 0
        && (terminal != s.table.name || (!look.isWord && look.state == state)))
      || ((look.tree.facts.size.bytes != 0 || terminal == 0) && s.table.isSettled state terminal)

/-- The next token of a reading. -/
def nextToken (s : Setting) (m : Machine) (n : Nat) : Lookahead × Machine :=
  let j := m.tip n
  let known := m.cache.bind fun (place, look) =>
    if place = j.place && s.isReusable j.state look then some look else none
  match known with
  | some look => (look, m)
  | none =>
    let look := s.look j.state j.place
    (look, { m with cache := some (j.place, look) })

/-- The token as a name. -/
def asName (s : Setting) (look : Lookahead) : Lookahead :=
  { look with
    tree := .token s.table s.table.name look.tree.facts.gap look.tree.facts.size
    terminal := some s.table.name }

/-! ### Putting nodes together -/

/-- The best of the ways back to one joint: its subtree, and what stands behind it. -/
def bestSlice (s : Setting) (fuel nonterminal shape : Nat) : List Slice → Subtree × List Subtree →
    Subtree × List Subtree
  | [], best => best
  | slice :: rest, best =>
    let (children, extras) := Subtree.trimExtras slice.trees
    let tree := Subtree.node s.table nonterminal children shape
    s.bestSlice fuel nonterminal shape rest
      (if best.1.prefers s.table fuel tree then (tree, extras) else best)

/-- Goes on from the joints where slices end. The slices of one joint stand next to each other;
`removed` heads of theirs have been taken away already. -/
def goOn (s : Setting) (n nonterminal shape : Nat) (merit : Int) (limit : Nat) :
    Nat → List Slice → Nat → Machine → Machine
  | 0, _, _, m => m
  | _, [], _, m => m
  | fuel + 1, slice :: rest, removed, m =>
    let own := rest.takeWhile (·.head == slice.head)
    let others := rest.dropWhile (·.head == slice.head)
    let head := slice.head - removed
    if limit < head then s.goOn n nonterminal shape merit limit fuel others (removed + 1)
      (m.removeHead head)
    else
      let (children, extras) := Subtree.trimExtras slice.trees
      let first := Subtree.node s.table nonterminal children shape
      let (tree, extras) := s.bestSlice (s.page.size * 50 + 1000) nonterminal shape own
        (first, extras)
      let next := s.table.goto (m.tip head).state nonterminal
      let m := m.push head (some (tree.withMerit merit)) next
      let m := extras.foldl (fun m extra => m.push head (some extra) next) m
      let (isMerged, m) := m.mergeInto 0 head (some n) head
      s.goOn n nonterminal shape merit limit fuel others (if isMerged then removed + 1 else removed)
        m

/-- Puts the last `count` nodes of a reading together. The readings that go on from there are added
behind all others; the number of the first of them is given, if there are any. -/
def reduce (s : Setting) (n nonterminal count : Nat) (merit : Int) (shape : Nat) (m : Machine) :
    Option Nat × Machine :=
  let first := m.heads.size
  let (slices, m) := m.popCount n count
  let halted := m.heads.countP (·.status == .halted)
  let m := s.goOn n nonterminal shape merit (maxHeads + spareHeads + halted) (slices.length + 1)
    slices 0 m
  (if first < m.heads.size then some first else none, m)

/-! ### Complete readings -/

/-- The subtrees as one tree: the last one that may not stand anywhere takes the others in. -/
def rootOf (s : Setting) (trees : List Subtree) : Option Subtree :=
  let reversed := trees.reverse
  match reversed.dropWhile (·.isExtra) with
  | [] => none
  | root :: before =>
    let children := before.reverse ++ root.children ++ (reversed.takeWhile (·.isExtra)).reverse
    match root.label with
    | .nonterminal v => some (.node s.table v children root.facts.shape)
    | label => some (.passedOver label children)

/-- Ends a reading at the end of the text. -/
def accept (s : Setting) (n : Nat) (look : Lookahead) (m : Machine) : Machine :=
  let m := m.push n (some look.tree) 1
  let (slices, m) := m.popAll n
  let m := slices.foldl (fun (m : Machine) slice =>
    match s.rootOf slice.trees with
    | none => m
    | some root =>
      let isBetter := (m.finished.map fun old =>
        old.prefers s.table (s.page.size * 50 + 1000) root).getD true
      { m with
        accepted := m.accepted + 1
        finished := if isBetter then some root else m.finished }) m
  let m := match slices with
    | [] => m
    | slice :: _ => m.removeHead slice.head
  m.halt n

/-! ### Faults -/

/-- Ends the fault of a reading at a state that was passed `depth` subtrees ago: what was read since
is passed over. The head added for it is there if the state has been found. -/
def returnTo (s : Setting) (goal : Nat) : List Slice → Option Nat → Machine → Option Nat × Machine
  | [], previous, m => (previous, m)
  | slice :: rest, previous, m =>
    if previous = some slice.head then s.returnTo goal rest previous m
    else if (m.tip slice.head).state ≠ goal then
      s.returnTo goal rest previous (m.halt slice.head)
    else
      let (fault, m) := m.popFault slice.head
      let trees := ((fault.map (·.children)).getD []) ++ slice.trees
      let (passed, extras) := Subtree.trimExtras trees
      let m := if passed.isEmpty then m
        else m.push slice.head (some ((Subtree.passedOver .fault passed).withExtra true)) goal
      let m := extras.foldl (fun m extra => m.push slice.head (some extra) goal) m
      s.returnTo goal rest (some slice.head) m

/-- Looks among the joints passed for one at which reading can go on with the token. Tells whether
there is one. -/
def returnAmong (s : Setting) (n : Nat) (terminal : Nat) (heads : Nat) (cost since : Nat) :
    List Recall → Machine → Bool × Machine
  | [], m => (false, m)
  | r :: rest, m =>
    let place := (m.tip n).place
    if r.state = 0 || r.place = place then s.returnAmong n terminal heads cost since rest m
    else if (List.range heads).any fun i =>
        (m.tip i).state == r.state && (m.tip i).place == place then
      s.returnAmong n terminal heads cost since rest m
    else
      let passed := s.page.between r.place place
      let (isBetter, m) := m.hasBetter n false
        (cost + r.depth * Subtree.nodeCost + passed.bytes + passed.lines * Subtree.lineCost)
      if isBetter then (false, m)
      else if (s.table.actions r.state terminal).isEmpty then
        s.returnAmong n terminal heads cost since rest m
      else
        let depth := if 0 < since then r.depth + 1 else r.depth
        let (slices, m) := m.popCount n depth
        match s.returnTo r.state slices none m with
        | (some _, m) => (true, m)
        | (none, m) => s.returnAmong n terminal heads cost since rest m

/-- Takes away the heads from `start` on that are not active. -/
def dropInactive (start : Nat) (m : Machine) : Machine :=
  { m with heads := m.heads.extract 0 start
      ++ (m.heads.extract start m.heads.size).filter (·.status == .active) }

/-- Passes over the token. -/
def passOver (s : Setting) (n : Nat) (look : Lookahead) (since : Nat) (m : Machine) : Machine :=
  let isExtra := ((look.terminal.bind fun terminal =>
    (s.table.actions 1 terminal).getLast?).map (· == .pass)).getD false
  let tree := if isExtra then look.tree.withExtra true else look.tree
  let run := Subtree.passedOver .run [tree]
  if 0 < since then
    let (slices, m) := m.popCount n 1
    match slices with
    | [] => m
    | slice :: _ =>
      let m := { m with heads := m.heads.extract 0 (slice.head + 1) }
      let m := m.renumber slice.head n
      m.push n (some (.passedOver .run (slice.trees ++ [run]))) 0
  else m.push n (some run) 0

/-- Deals with a token in a fault. -/
def recover (s : Setting) (n : Nat) (look : Lookahead) (m : Machine) : Machine :=
  let heads := m.heads.size
  let m := m.settleCount n
  let since := m.countSince n
  let cost := m.costOf n
  let (isRecalled, m) := match look.terminal, (m.head n).recalls with
    | some terminal, some recalls => s.returnAmong n terminal heads cost since recalls m
    | _, _ => (false, m)
  let m := dropInactive heads m
  if look.terminal = some 0 then
    s.accept n look (m.push n (some (.passedOver .fault [])) 1)
  else if isRecalled && maxHeads < m.heads.size then m.halt n
  else
    let total := look.tree.total
    let (isBetter, m) := m.hasBetter n false
      (cost + Subtree.nodeCost + total.bytes + total.lines * Subtree.lineCost)
    if isBetter then m.halt n else s.passOver n look since m

/-- The reductions among the actions of a state, for all terminals or one, each nonterminal and
count once; and whether a token can be taken. -/
def possible (s : Setting) (state : Nat) (terminal : Option Nat) : Bool × List Action :=
  let terminals := match terminal with
    | some n => [n]
    | none => (List.range (s.table.productions.terminals.size + 1)).drop 1
  let actions := terminals.flatMap (s.table.actions state)
  let takes := actions.any fun
    | .shift _ isAgain => !isAgain
    | .recover => true
    | _ => false
  (takes, actions.foldl (fun all a =>
    match a with
    | .reduce v count _ _ =>
      if count = 0 || all.any (fun
          | .reduce w size _ _ => w == v && size == count
          | _ => false) then all
      else all ++ [a]
    | _ => all) [])

/-- Puts nodes together in all ways that are possible at the end of the reading `start`, for any
terminal or the given one, and at the ends of the readings that this gives. Tells whether one of
them can take a token. -/
def reduceAll (s : Setting) (start first : Nat) (terminal : Option Nat) :
    Nat → Nat → Nat → Bool → Machine → Bool × Machine
  | 0, _, _, can, m => (can, m)
  | fuel + 1, round, n, can, m =>
    let count := m.heads.size
    if count ≤ n then (can, m)
    else
      let (isMerged, m) := m.mergeInto first n none n
      if isMerged then s.reduceAll start first terminal fuel (round + 1) n can m
      else
        let (takes, reductions) := s.possible (m.tip n).state terminal
        let (added, m) := reductions.foldl (fun (added, m) a =>
          match a with
          | .reduce v count merit shape => s.reduce n v count merit shape m
          | _ => (added, m)) ((none : Option Nat), m)
        let next := if n = start then count else n + 1
        if takes then s.reduceAll start first terminal fuel (round + 1) next true m
        else
          match added, decide (round < maxHeads) with
          | some head, true =>
            s.reduceAll start first terminal fuel (round + 1) n can (m.renumber head n)
          | _, _ =>
            let m := if terminal.isSome then m.removeHead n else m
            s.reduceAll start first terminal fuel (round + 1) next can m

/-- Puts nodes together in all ways at the end of the reading. The end of the text is no token here:
all terminals count instead. -/
def reduceFor (s : Setting) (n : Nat) (terminal : Option Nat) (m : Machine) : Bool × Machine :=
  let terminal := if terminal = some 0 then none else terminal
  s.reduceAll n m.heads.size terminal 1000 0 n false m

/-- Supplies the first of the terminals with which the reading can go on to the token. Tells whether
there is one. -/
def supply (s : Setting) (n terminal : Nat) : List Nat → Machine → Bool × Machine
  | [], m => (false, m)
  | lacking :: rest, m =>
    let state := (m.tip n).state
    let after := s.table.after state lacking
    let isOpen := match s.table.actions after terminal with
      | .reduce .. :: _ => true
      | _ => false
    if after = 0 || after = state || !isOpen then s.supply n terminal rest m
    else
      let copy := m.heads.size
      let m := m.addHead { m.head n with recalls := none }
      let m := m.push copy (some (.absent s.table lacking)) after
      match s.reduceFor copy (some terminal) m with
      | (true, m) => (true, m)
      | (false, m) => s.supply n terminal rest m

/-- Supplies a token that the text lacks, if some of the readings can go on with one, and begins a
fault in each of them: in the reading `n` and in those from `next` up to `stop`. -/
def beginFaults (s : Setting) (n first stop : Nat) (terminal : Option Nat) :
    Nat → Nat → Bool → Machine → Machine
  | 0, _, _, m => m
  | fuel + 1, current, isSupplied, m =>
    if stop ≤ current then m
    else
      let (isSupplied, m) := match isSupplied, terminal with
        | false, some t =>
          s.supply current t ((List.range (s.table.productions.terminals.size + 1)).drop 1) m
        | _, _ => (isSupplied, m)
      let m := m.push current none 0
      s.beginFaults n first stop terminal fuel (if current = n then first else current + 1)
        isSupplied m

/-- Deals with a token at which a reading cannot go on. -/
def handleFault (s : Setting) (n : Nat) (look : Lookahead) (m : Machine) : Machine :=
  let first := m.heads.size
  let (_, m) := s.reduceFor n none m
  let stop := m.heads.size
  let m := s.beginFaults n first stop look.terminal (stop + 1) n false m
  let m := (List.range (stop - first)).foldl (fun m _ => (m.merge n first).2) m
  let recalls := m.recallsOf n
  let m := m.modifyHead n fun h => { h with recalls := some recalls }
  s.recover n look m

/-! ### Going on -/

/-- Takes the token. -/
def take (n state : Nat) (look : Lookahead) (isExtra : Bool) (m : Machine) : Machine :=
  let tree := if look.tree.isExtra == isExtra then look.tree else look.tree.withExtra isExtra
  m.push n (some tree) state

/-- What the actions of a reading have come to. -/
inductive Progress
  /-- The token has been dealt with. -/
  | done
  /-- Nodes have been put together; the first of the readings that go on from there. -/
  | reduced (head : Option Nat)
  /-- There was nothing to do. -/
  | stuck

/-- Does what the actions say: puts nodes together in all the ways, and at last takes the token. -/
def act (s : Setting) (n : Nat) (look : Lookahead) : List Action → Progress → Machine →
    Progress × Machine
  | [], progress, m => (progress, m)
  | a :: rest, progress, m =>
    match a with
    | .shift _ true => s.act n look rest progress m
    | .shift state false => (.done, take n state look false m)
    | .pass => (.done, take n (m.tip n).state look true m)
    | .accept => (.done, s.accept n look m)
    | .recover => (.done, s.recover n look m)
    | .reduce v count merit shape =>
      let (head, m) := s.reduce n v count merit shape m
      let last := match head, progress with
        | some h, _ => some h
        | none, .reduced h => h
        | none, _ => none
      s.act n look rest (.reduced last) m

/-- Lets a reading go on with the token until it is dealt with or there is no way to go on. -/
def goOnWith (s : Setting) (n : Nat) : Nat → Lookahead → Machine → Machine
  | 0, _, m => m.halt n
  | fuel + 1, look, m =>
    let state := (m.tip n).state
    match s.act n look (s.actionsFor state look.terminal) .stuck m with
    | (.done, m) => m
    | (.reduced (some head), m) => s.goOnWith n fuel look (m.renumber head n)
    | (.reduced none, m) => m.halt n
    | (.stuck, m) =>
      if look.isWord && look.terminal != some s.table.name
          && !(s.table.actions state s.table.name).isEmpty then
        s.goOnWith n fuel (s.asName look) m
      else if state = 0 then s.recover n look m
      else
        let count := (m.tip n).count
        m.modifyHead n fun h =>
          { h with status := .waiting, look := some look, countAtFault := count }

/-- Lets a reading go on by one token. -/
def advance (s : Setting) (n : Nat) (m : Machine) : Machine :=
  let (look, m) := s.nextToken m n
  s.goOnWith n (10 * s.page.size + 1000) look m

/-! ### All readings -/

/-- Lets a reading go on until it is behind the place, or at it if it is not the first. Gives the
place where it is then. -/
def advanceTo (s : Setting) (n : Nat) : Nat → Nat → Machine → Nat × Machine
  | 0, place, m => (place, m)
  | fuel + 1, place, m =>
    if (m.head n).status == .active && n < m.heads.size then
      let m := s.advance n m
      let reached := (m.tip n).place
      if place < reached || (0 < n && reached = place) then (reached, m)
      else s.advanceTo n fuel place m
    else (place, m)

/-- Lets all readings from `n` on go on, one after the other. -/
def advanceAll (s : Setting) : Nat → Nat → Nat → Machine → Nat × Machine
  | 0, _, place, m => (place, m)
  | fuel + 1, n, place, m =>
    if m.heads.size ≤ n then (place, m)
    else
      let (place, m) := s.advanceTo n (10 * s.page.size + 1000) place m
      s.advanceAll fuel (n + 1) place m

/-- Compares the reading `i` with those from `j` up to it: of two readings the worse one is given
up, put behind the other or merged with it. Gives the number of the next reading to compare. -/
def compareFrom (own : Score) : Nat → Nat → Nat → Machine → Nat × Machine
  | 0, _, i, m => (i + 1, m)
  | fuel + 1, j, i, m =>
    if i ≤ j then (i + 1, m)
    else
      let m := m.settleCount j
      match (m.scoreOf j).compare own with
      | .takeLeft => (i, m.removeHead i)
      | .takeRight => compareFrom own fuel j (i - 1) (m.removeHead j)
      | preference =>
        match m.merge j i with
        | (true, m) => (i, m)
        | (false, m) =>
          let m := if preference == .preferRight then
              { m with heads := m.heads.swapIfInBounds i j }
            else m
          compareFrom own fuel (j + 1) i m

/-- Compares all readings from `i` on with those before them. Gives the least cost of a reading
without a fault at its end. -/
def compareAll : Nat → Nat → Option Nat → Machine → Option Nat × Machine
  | 0, _, least, m => (least, m)
  | fuel + 1, i, least, m =>
    if m.heads.size ≤ i then (least, m)
    else if (m.head i).status == .halted then compareAll fuel i least (m.removeHead i)
    else
      let m := m.settleCount i
      let own := m.scoreOf i
      let least :=
        if own.isInFault then least
        else some ((least.map fun cost => min cost own.cost).getD own.cost)
      let (next, m) := compareFrom own (2 * m.heads.size + 2) 0 i m
      compareAll fuel next least m

/-- Lets the first of the waiting readings deal with its fault, unless there is a reading that goes
on; and gives up the others. -/
def resume (s : Setting) : Nat → Nat → Nat → Bool → Option Nat → Machine → Option Nat × Machine
  | 0, _, _, _, least, m => (least, m)
  | fuel + 1, i, count, isGoing, least, m =>
    if count ≤ i then (least, m)
    else
      let h := m.head i
      match h.status == .waiting, h.look with
      | true, some look =>
        if !isGoing && m.accepted < maxHeads then
          let least := some (m.costOf i)
          let m := m.modifyHead i fun h => { h with status := .active, look := none }
          s.resume fuel (i + 1) count true least (s.handleFault i look m)
        else s.resume fuel i (count - 1) isGoing least (m.removeHead i)
      | _, _ => s.resume fuel (i + 1) count true least m

/-- Compares the readings and keeps the best of them; if none of them goes on, a fault is dealt
with. Gives the least cost of a reading, if there is one. -/
def condense (s : Setting) (m : Machine) : Option Nat × Machine :=
  let (least, m) := compareAll (4 * m.heads.size * m.heads.size + 20) 0 none m
  let m := { m with heads := m.heads.extract 0 maxHeads }
  s.resume (2 * m.heads.size + 2) 0 m.heads.size false least m

/-- Lets all readings go on until the best complete one cannot be beaten. -/
def readOn (s : Setting) : Nat → Nat → Machine → Machine
  | 0, _, m => m
  | fuel + 1, place, m =>
    let (place, m) := s.advanceAll (m.heads.size + 1000) 0 place m
    let (least, m) := s.condense m
    let isBeaten := match m.finished, least with
      | some root, some cost => decide (root.cost < cost)
      | some _, none => true
      | none, _ => false
    if isBeaten || m.heads.isEmpty then m else s.readOn fuel place m

/-- The tree of the text. -/
def read (s : Setting) : Option Subtree :=
  let start : Machine := { joints := #[{ state := 1 }], heads := #[{ joint := 0 }] }
  (s.readOn (10 * s.page.size + 1000) 0 start).finished

end Setting

end ViewBinding.Parsing
