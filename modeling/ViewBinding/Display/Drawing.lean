import ViewBinding.Display.Canvas
import ViewBinding.Display.Excerpt
import ViewBinding.Display.Margin

/-!
# Drawing excerpts

How the lines of an excerpt are drawn below each other, each with its strokes:

* the line itself, cut to the margin (`ViewBinding.Display.drawLine`);
* below it the strokes, and their labels where there is room: a label stands behind its stroke,
  or hangs from it on a row further down (`ViewBinding.Display.place`);
* the bars of marks of several lines at the left, and a row of three dots, or the one line in
  between, where lines are left out (`ViewBinding.Display.drawExcerpt`).
-/

namespace ViewBinding.Display

/-- The columns in which the parts of a row start. -/
structure Frame where
  /-- The digits of the largest line number. -/
  digits : Nat
  /-- The columns for bars. -/
  depth : Nat
deriving DecidableEq, Repr

namespace Frame

/-- The column of the frame that separates numbers from lines. -/
def rule (f : Frame) : Nat :=
  f.digits + 1

/-- The column of the bars. -/
def bars (f : Frame) : Nat :=
  f.digits + 3

/-- The column of the lines. -/
def code (f : Frame) : Nat :=
  if f.depth = 0 then f.bars else f.bars + f.depth + 1

end Frame

/-- Draws the frame in a row. -/
def drawRule (f : Frame) (row : Nat) (c : Canvas) : Canvas :=
  c.putChar row f.rule .frame '|'

/-- The number with blanks in front up to a width. -/
def padded (width n : Nat) : String :=
  let digits := toString n
  String.ofList (List.replicate (width - digits.length) ' ') ++ digits

/-! ### A line -/

/-- What stands for a part that is left out. -/
def ellipsis : String := "..."

/-- The characters after those that take the first `width` columns, and the columns that were
taken. -/
def skipColumns (width taken : Nat) : List Char → List Char × Nat
  | [] => ([], taken)
  | c :: cs =>
    if taken < width then skipColumns width (taken + charColumns c) cs else (c :: cs, taken)

/-- The characters from the start that fit into `width` columns. -/
def takeColumns (width taken : Nat) : List Char → List Char
  | [] => []
  | c :: cs =>
    if taken + charColumns c ≤ width then c :: takeColumns width (taken + charColumns c) cs
    else []

/-- Draws a line in a row, cut to the margin, and gives the column of the line that stands
first. -/
def drawLine (f : Frame) (m : Margin) (line : SourceLine) (row : Nat) (c : Canvas) :
    Nat × Canvas :=
  let chars := shown line.chars
  let length := textColumns chars
  let start := m.startIn length
  let stop := m.stopIn length
  let (rest, skipped) := skipColumns start 0 chars
  let code := takeColumns (stop - start) 0 rest
  let first := max start skipped
  let (behind, hidden) := if m.start > 0 then skipColumns ellipsis.length 0 code else (code, 0)
  let c := if m.start > 0 then c.putText row f.code .frame ellipsis else c
  let c := c.putChars row (f.code + hidden) .plain behind
  let c :=
    if length > stop then
      let cut := code.length - (skipColumns ellipsis.length 0 code.reverse).1.length
      c.putText row (f.code + hidden + behind.length - cut) .frame ellipsis
    else c
  let c := c.putText row 0 .frame (padded f.digits line.number)
  (first, drawRule f row c)

/-! ### The places of labels -/

/-- A stroke and how many rows its label is moved down. -/
structure Placed where
  drop : Nat
  stroke : Stroke
deriving DecidableEq, Repr, Inhabited

/-- Whether `s` has to go down a row because `t`, a stroke further left, overlaps it. A stroke of
the same extent without a label does not count. -/
def isCovered (s t : Stroke) : Bool :=
  t.overlaps s 0 && s.hasLabel && !(t.start == s.start && t.stop == s.stop && !t.hasLabel)

/-- Whether `t`, a stroke further left, and all after it have to go down a row because of `s`,
which is moved down by `drop` rows. -/
def isCrowded (drop : Nat) (s t : Stroke) : Bool :=
  let room := if t.label.isEmpty then 0 else (String.ofList t.label).utf8ByteSize + 2
  (t.overlaps s room && s.hasLabel && t.hasLabel)
    || (s.takesSpace && t.hasLabel)
    || (s.hasLabel && t.takesSpace)
    || (s.takesSpace && t.takesSpace)
    || (t.overlaps s room && !s.stop.isLeftOf t.stop && t.hasLabel && drop == 0)

/-- The places of strokes, which are ordered from right to left, and the number of rows that are
needed; the next stroke is moved down by `drop` rows at least. -/
def place (drop : Nat) : List Stroke → List Placed × Nat
  | [] => ([], drop)
  | s :: strokes =>
    let drop := if drop = 0 && strokes.any (isCovered s) then drop + 1 else drop
    let next := if strokes.any (isCrowded drop s) then drop + 1 else drop
    let (places, rows) := place next strokes
    (⟨drop, s⟩ :: places, rows)

/-- How many of all strokes each of the strokes is compared with: those up to itself, and those
further left up to the first that covers it. `passed` strokes stand further right. -/
def compared (drop passed : Nat) : List Stroke → List Nat
  | [] => []
  | s :: strokes =>
    let isHidden := drop = 0 && strokes.any (isCovered s)
    let further := if isHidden then strokes.findIdx (isCovered s) + 1 else strokes.length
    let drop := if isHidden then drop + 1 else drop
    let next := if strokes.any (isCrowded drop s) then drop + 1 else drop
    (passed + 1 + further) :: compared next (passed + 1) strokes

/-- Which of the strokes, from right to left, count as overlapping another one. The first two are
not looked for, so that two strokes alone never overlap; each of the others overlaps at least
itself. -/
def overlapping (strokes : List Stroke) : List Bool :=
  let all := strokes.zip (compared 0 0 strokes)
  let meets (i j : Nat) : Bool :=
    match all[i]?, strokes[j]? with
    | some (s, count), some t => 2 ≤ j && j < count && t.overlaps s 0
    | _, _ => false
  let numbers := List.range strokes.length
  numbers.map fun k => numbers.any fun i => meets i k || meets k i

/-- Whether the strokes are only starts of marks of several lines. -/
def areOpenings (places : List Placed) : Bool :=
  places.all fun p => match p.stroke.shape with
    | .opening _ => true
    | _ => false

/-- The strokes of a line from right to left. -/
def rightToLeft (strokes : List Stroke) : List Stroke :=
  strokes.mergeSort fun s t => !s.start.isLeftOf t.start

/-- The places of the strokes of a line and the number of rows below the first. Where there are
only starts, the rows are turned round. -/
def placesOf (strokes : List Stroke) : List Placed × Nat :=
  let (places, rows) := place 0 (rightToLeft strokes)
  let rows := if rows = 0 then 0 else rows + 1
  if areOpenings places then
    let deepest := places.foldl (fun drop p => max drop p.drop) 0
    (places.map fun p => { p with drop := deepest - p.drop }, rows - 1)
  else (places, rows)

/-! ### Strokes -/

/-- The tone of a stroke and of its label. -/
def Stroke.tone (s : Stroke) : Tone :=
  if s.isPrimary then .signal else .frame

/-- The character that a stroke is made of. -/
def Stroke.glyph (s : Stroke) : Char :=
  if s.isPrimary then '^' else '-'

/-- Where a line is drawn. -/
structure Station where
  frame : Frame
  /-- The row of the line. -/
  row : Nat
  /-- The rows below the first one for strokes. -/
  rows : Nat
  /-- The column of the line that stands first. -/
  first : Nat
deriving DecidableEq, Repr

namespace Station

/-- Where a column of the line is drawn. -/
def column (t : Station) (n : Nat) : Nat :=
  t.frame.code + n - t.first

/-- Draws what leads from a mark of several lines to its bar. -/
def drawLead (t : Station) (c : Canvas) (p : Placed) : Canvas :=
  match p.stroke.shape with
  | .opening depth | .closing depth =>
    c.putRun (t.row + p.drop + 1) (t.frame.bars + depth) (t.column p.stroke.start.column)
      p.stroke.tone '_'
  | _ => c

/-- Draws what leads down from a stroke whose label hangs. -/
def drawHanger (t : Station) (c : Canvas) (p : Placed) : Canvas :=
  if p.drop > 0 && (p.stroke.hasLabel || p.stroke.takesSpace) then
    c.putColumn (t.row + 1) (t.row + p.drop + 2) (t.column p.stroke.start.column)
      p.stroke.tone '|'
  else c

/-- Draws the bar of a mark of several lines as far as it reaches at this line. -/
def drawBar (t : Station) (c : Canvas) (p : Placed) : Canvas :=
  let turn := t.row + p.drop + 1
  match p.stroke.shape with
  | .opening depth =>
    let column := t.frame.bars + depth - 1
    (c.putChar turn column p.stroke.tone ' ').putColumn (turn + 1) (t.row + t.rows + 2) column
      p.stroke.tone '|'
  | .closing depth =>
    c.putColumn t.row (turn + 1) (t.frame.bars + depth - 1) p.stroke.tone '|'
  | _ => c

/-- Draws the label of a stroke. -/
def drawLabel (t : Station) (c : Canvas) (p : Placed) : Canvas :=
  let (row, column) :=
    if p.drop = 0 then
      (t.row + 1, p.stroke.stop.column + (if p.stroke.stop.column = 0 then 2 else 1))
    else (t.row + p.drop + 2, p.stroke.start.column)
  c.putChars row (t.frame.code + (column - t.first)) p.stroke.tone p.stroke.label

/-- Draws a stroke itself. -/
def drawStroke (t : Station) (c : Canvas) (p : Placed) : Canvas :=
  let s := p.stroke
  let c := (List.range' s.start.column (s.stop.column - s.start.column)).foldl
    (fun c n => c.putChar (t.row + 1) (t.column n) s.tone s.glyph) c
  if s.takesSpace || (p.drop > 0 && s.hasLabel) then
    c.putChar (t.row + 1) (t.column s.start.column) s.tone s.glyph
  else c

/-- Cuts the middle out of a stroke that is far longer than the terminal is wide. -/
def shorten (t : Station) (width : Nat) (c : Canvas) (p : Placed) : Canvas :=
  let s := p.stroke
  if s.shape == .whole && s.width > width * 2 && s.width > 10 then
    let pad := max (width / 3) 5
    let start := t.column s.start.column + pad
    let stop := t.column s.stop.column - pad
    (c.replace t.row start stop ellipsis).replace (t.row + 1) start stop ellipsis
  else c

end Station

/-- Longer strokes first, so that shorter ones stay visible; of two of one length the primary one
is drawn later. -/
def longestFirst (places : List Placed) : List Placed :=
  places.mergeSort fun p q =>
    q.stroke.width < p.stroke.width
      || (p.stroke.width == q.stroke.width && (!p.stroke.isPrimary || q.stroke.isPrimary))

/-! ### A line with its strokes -/

/-- A bar at the left: its depth and its tone. -/
abbrev Bar := Nat × Tone

/-- The marks that start at a line without a stroke of their own, because nothing stands in front
of them and nothing else is to be drawn. -/
def shortOpenings? (line : MarkedLine) : Option (List Bar) :=
  let chars := shown line.line.chars
  line.strokes.foldr (fun s rest? => rest?.bind fun rest =>
    match s.shape with
    | .opening depth =>
      if (chars.take s.start.column).all Text.isBlank then some ((depth, s.tone) :: rest)
      else none
    | .passing => some rest
    | _ => none) (some [])

/-- Draws a line of an excerpt in the next row with its strokes below, and gives the bars that
start or end there. -/
def drawMarkedLine (f : Frame) (m : Margin) (line : MarkedLine) (c : Canvas) :
    List Bar × Canvas :=
  let row := c.size
  let (first, c) := drawLine f m line.line row c
  match shortOpenings? line with
  | some bars =>
    (bars, bars.foldl (fun c bar => c.putChar row (f.bars + bar.1 - 1) bar.2 '/') c)
  | none =>
    let (places, rows) := placesOf line.strokes
    let t : Station := ⟨f, row, rows, first⟩
    let c := (List.range (rows + 1)).foldl (fun c i => drawRule f (row + i + 1) c) c
    let c := places.foldl t.drawLead c
    let c := places.foldl (fun c p => t.drawBar (t.drawHanger c p) p) c
    let c := places.foldl t.drawLabel c
    let sorted := longestFirst places
    let c := sorted.foldl t.drawStroke c
    let flags := overlapping (rightToLeft line.strokes)
    let free := (sorted.zip flags).filterMap fun (p, hit) => if hit then none else some p
    let c := free.foldl (t.shorten m.width) c
    let bars := sorted.filterMap fun p => match p.stroke.shape with
      | .opening depth | .closing depth => some (depth, p.stroke.tone)
      | _ => none
    (bars, c)

/-! ### An excerpt -/

/-- Draws bars in a row. -/
def drawBars (f : Frame) (row : Nat) (bars : List Bar) (c : Canvas) : Canvas :=
  bars.foldl (fun c bar => c.putChar row (f.bars + bar.1 - 1) bar.2 '|') c

/-- The bars that go on, and those that start, when a bar starts or ends. -/
def toggle (bars : List Bar × List Bar) (bar : Bar) : List Bar × List Bar :=
  if bars.1.any fun other => other.1 == bar.1 then
    (bars.1.filter fun other => other.1 != bar.1, bars.2)
  else (bars.1, bars.2.filter (fun other => other.1 != bar.1) ++ [bar])

/-- Draws what stands between two lines of an excerpt: nothing if they are neighbours, the line in
between if there is one, else dots. -/
def drawGap (f : Frame) (m : Margin) (lines : List SourceLine) (line next : MarkedLine)
    (bars : List Bar) (c : Canvas) : Canvas :=
  let row := c.size
  let openings := line.strokes.filterMap fun s => match s.shape with
    | .opening depth => some (depth, s.tone)
    | _ => none
  let all := bars ++ openings
  if next.line.number = line.line.number + 2 then
    let between := (lineNumbered? lines (line.line.number + 1)).getD default
    drawBars f row all (drawLine f m between row c).2
  else if next.line.number > line.line.number + 2 then
    drawBars f row all (c.putText row 0 .frame ellipsis)
  else c

/-- Draws lines of an excerpt below each other while `bars` go on at the left. -/
def drawLines (f : Frame) (m : Margin) (lines : List SourceLine) :
    List Bar → List MarkedLine → Canvas → Canvas
  | _, [], c => c
  | bars, line :: rest, c =>
    let row := c.size
    let (turns, c) := drawMarkedLine f m line c
    let (bars, starting) := turns.foldl toggle (bars, [])
    let c := (List.range' row (c.size - row)).foldl (fun c row => drawBars f row bars c) c
    let c := match rest with
      | [] => c
      | next :: _ => drawGap f m lines line next bars c
    drawLines f m lines (bars ++ starting) rest c

/-- The columns of white space at the start of a line. -/
def indentOf (cs : List Char) : Nat :=
  ((cs.takeWhile Text.isBlank).map fun c => if c = '\t' then 4 else 1).foldr (· + ·) 0

/-- The least of the numbers, zero if there are none. -/
def least : List Nat → Nat
  | [] => 0
  | n :: ns => ns.foldl min n

/-- The columns that the label of a stroke takes behind it; the start of a mark of several lines
never has one. -/
def labelRoom (s : Stroke) : Nat :=
  match s.shape with
  | .opening _ | .passing => 0
  | _ => textColumns s.label + 1

/-- What the margin of an excerpt is chosen by. -/
def boundsOf (f : Frame) (marked : List MarkedLine) : Bounds :=
  let strokes := (marked.flatMap MarkedLine.strokes).filter fun s => s.shape != .passing
  let columns := strokes.flatMap fun s => [s.start.column, s.stop.column]
  let printed := marked.filter fun line => line.line.chars.any fun c => !Text.isBlank c
  { indent := min (least columns) (least (printed.map fun line => indentOf line.line.chars))
    markStart := least columns
    markStop := columns.foldl max 0
    labelStop := (strokes.map fun s => s.stop.column + labelRoom s).foldl max 0
    longest := (marked.map fun line => textColumns line.line.chars).foldl max 0
    width := terminalWidth - f.code }

/-- Draws an excerpt below what is drawn already. -/
def drawExcerpt (f : Frame) (e : Excerpt) (c : Canvas) : Canvas :=
  drawLines f (.of (boundsOf f e.marked)) e.lines [] e.marked c

end ViewBinding.Display
