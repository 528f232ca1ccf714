import ViewBinding.Display.Glyph
import ViewBinding.Text.Blank
import ViewBinding.Text.Extent

/-!
# Excerpts of a source

What is shown of a source is its lines with marks. `ViewBinding.Display.sourceLines` takes a
source apart into lines. A `ViewBinding.Display.Mark` is an extent with a label, and
`ViewBinding.Display.excerpt` gives the lines with what is to be drawn on each: a mark that stays in
one line is drawn below it, one that does not is drawn as an opening below its first line, a
closing below its last one, and a bar at the left of some lines between them. Such marks get
different depths, the number of the column for their bar, where they overlap.
-/

namespace ViewBinding.Display

open Text

/-! ### Lines -/

/-- A line of a source. -/
structure SourceLine where
  /-- The number of the line; the first is line one. -/
  number : Nat
  chars : List Char
  /-- The byte at which the line starts. -/
  start : Nat
  /-- The bytes of its line ending. -/
  ending : Nat
deriving DecidableEq, Repr, Inhabited

namespace SourceLine

/-- The length in bytes without the line ending. -/
def length (l : SourceLine) : Nat :=
  byteLength l.chars

/-- The byte behind the line ending. -/
def stop (l : SourceLine) : Nat :=
  l.start + l.length + l.ending

end SourceLine

/-- The line with these characters, the last first, that ends with a line feed. -/
def lineBeforeFeed (number start : Nat) (known : List Char) : SourceLine :=
  match known with
  | '\r' :: rest => ⟨number, rest.reverse, start, 2⟩
  | _ => ⟨number, known.reverse, start, 1⟩

/-- The lines of a source from the line `number` on, which starts at the byte `start` and of which
`known` was read, the last character first. -/
def linesFrom (number start : Nat) (known : List Char) : List Char → List SourceLine
  | [] => if known.isEmpty then [] else [⟨number, known.reverse, start, 0⟩]
  | c :: cs =>
    if c = '\n' then
      let line := lineBeforeFeed number start known
      line :: linesFrom (number + 1) line.stop [] cs
    else linesFrom number start (c :: known) cs

/-- The lines of a source; the empty source has one. -/
def sourceLines (source : String) : List SourceLine :=
  if source = "" then [⟨1, [], 0, 0⟩] else linesFrom 1 0 [] source.toList

/-! ### Spots -/

/-- A spot in a line, in characters and in columns. -/
structure Spot where
  line : Nat
  char : Nat
  column : Nat
deriving DecidableEq, Repr, Inhabited

/-- Whether `s` is further left than `t` in their lines: by columns first, and of two spots in one
column by characters. -/
def Spot.isLeftOf (s t : Spot) : Bool :=
  s.column < t.column || (s.column == t.column && s.char < t.char)

/-- The characters that end within the first `bytes` bytes. -/
def charsWithin (bytes : Nat) : List Char → List Char
  | [] => []
  | c :: cs => if c.utf8Size ≤ bytes then c :: charsWithin (bytes - c.utf8Size) cs else []

/-- The number of the line on which the last of the first `byte` bytes stands; the first is line
one. -/
def lineNumberAt (source : String) (byte : Nat) : Nat :=
  1 + ((charsWithin byte source.toList).dropLast).count '\n'

/-- The line in which a byte stands; the last line if it is behind all. -/
def lineAt (lines : List SourceLine) (byte : Nat) : SourceLine :=
  match lines.find? fun l => l.start ≤ byte && byte < l.stop with
  | some line => line
  | none => lines.getLast?.getD default

/-- The spot of a byte in its line. -/
def SourceLine.spot (l : SourceLine) (byte : Nat) : Spot :=
  let before := charsWithin (byte - l.start) l.chars
  ⟨l.number, before.length, textColumns before⟩

/-- The spots where an extent starts and stops. -/
def spotsOf (lines : List SourceLine) (e : Extent) : Spot × Spot :=
  let first := lineAt lines e.start
  let start := first.spot e.start
  let start := if e.start - first.start > first.length then { start with char := start.char + 1 }
    else start
  if e.start = e.stop then (start, start)
  else
    let last := lineAt lines e.stop
    let stop := last.spot e.stop
    if start.line ≠ stop.line && e.stop > last.stop - last.ending then
      (start, { stop with char := stop.char + 1, column := stop.column + 1 })
    else (start, stop)

/-! ### Marks -/

/-- An extent to be marked. -/
structure Mark where
  extent : Extent
  label : String
  /-- Whether the extent is that of the finding itself. -/
  isPrimary : Bool
deriving DecidableEq, Repr, Inhabited

/-- What is drawn of a mark at one line. -/
inductive Shape
  /-- All of it. -/
  | whole
  /-- Its start, for a mark of that depth. -/
  | opening (depth : Nat)
  /-- Its end, for a mark of that depth. -/
  | closing (depth : Nat)
  /-- A line that it only passes. -/
  | passing
deriving DecidableEq, Repr, Inhabited

/-- A stroke: what is drawn at one line for one mark. -/
structure Stroke where
  start : Spot
  stop : Spot
  /-- The label, empty if there is none. -/
  label : List Char
  isPrimary : Bool
  shape : Shape
deriving DecidableEq, Repr, Inhabited

namespace Stroke

/-- Whether there is a label to draw. -/
def hasLabel (s : Stroke) : Bool :=
  !s.label.isEmpty

/-- Whether the stroke is the start or the end of a mark of several lines. -/
def takesSpace (s : Stroke) : Bool :=
  match s.shape with
  | .opening _ | .closing _ => true
  | _ => false

/-- The columns that the stroke takes. -/
def width (s : Stroke) : Nat :=
  (s.stop.column - s.start.column) + (s.start.column - s.stop.column)

end Stroke

/-- Whether the numbers from `a` to before `b` and those from `c` to before `d` meet at the start
of one of them. -/
def meets (a b c d : Nat) : Bool :=
  (c ≤ a && a < d) || (a ≤ c && c < b)

/-- Whether two strokes overlap when the first is wider by `padding`. -/
def Stroke.overlaps (s t : Stroke) (padding : Nat) : Bool :=
  meets s.start.column (s.stop.column + padding) t.start.column t.stop.column

/-! ### Marks of several lines -/

/-- A mark of several lines. -/
structure Span where
  depth : Nat
  start : Spot
  stop : Spot
  label : List Char
  isPrimary : Bool
  /-- Whether another mark has the same extent. -/
  isRepeated : Bool
deriving DecidableEq, Repr, Inhabited

namespace Span

/-- Whether the two start and stop at the same spots. -/
def same (s t : Span) : Bool :=
  s.start == t.start && s.stop == t.stop

/-- Whether the lines of the two meet. -/
def overlaps (s t : Span) : Bool :=
  meets s.start.line (s.stop.line + 1) t.start.line (t.stop.line + 1)

/-- The stroke at the first line. -/
def opening (s : Span) : Stroke :=
  ⟨s.start, { s.start with char := s.start.char + 1, column := s.start.column + 1 }, [],
    s.isPrimary, .opening s.depth⟩

/-- The stroke at the last line. -/
def closing (s : Span) : Stroke :=
  ⟨{ s.stop with char := s.stop.char - 1, column := s.stop.column - 1 }, s.stop, s.label,
    s.isPrimary, if s.isRepeated then .whole else .closing s.depth⟩

/-- The stroke at a line in between. -/
def passing (s : Span) : Stroke :=
  ⟨⟨0, 0, 0⟩, ⟨0, 0, 0⟩, [], s.isPrimary, .passing⟩

/-- Moves the spans one to the right that meet `outer`, which is the one of number `number`, up to
the first that does not; that one is primary if its extent is one of `primaries`. -/
def makeRoom (outer : Span) (number : Nat) (primaries : List Span) : Nat → List Span → List Span
  | _, [] => []
  | i, s :: spans =>
    if !outer.same s && outer.overlaps s then
      { s with depth := s.depth + 1 } :: makeRoom outer number primaries (i + 1) spans
    else if outer.same s && number ≠ i then
      { s with isRepeated := true } :: makeRoom outer number primaries (i + 1) spans
    else
      { s with isPrimary := s.isPrimary || primaries.any s.same } :: spans

/-- Makes room for each of the spans `outers`, the first of which has that number. -/
def makeRoomAll (primaries : List Span) (number : Nat) (spans : List Span) :
    List Span → List Span
  | [] => spans
  | outer :: outers =>
    let primaries := if outer.isPrimary then primaries ++ [outer] else primaries
    makeRoomAll primaries (number + 1) (makeRoom outer number primaries 0 spans) outers

/-- The greatest depth. -/
def maxDepth (spans : List Span) : Nat :=
  spans.foldl (fun depth s => max depth s.depth) 0

/-- Spans in the order of their first lines, of several with the same one the longest first. -/
def sorted (spans : List Span) : List Span :=
  spans.mergeSort fun s t =>
    s.start.line < t.start.line || (s.start.line == t.start.line && t.stop.line ≤ s.stop.line)

/-- Gives the spans depths so that overlapping ones do not share one. -/
def arranged (spans : List Span) : List Span :=
  let spans := sorted spans
  let spans := makeRoomAll [] 0 spans spans
  let deepest := maxDepth spans
  spans.map fun s => { s with depth := deepest - s.depth + 1 }

end Span

/-- Whether a line counts as empty at the end of a span: it is blank, a comment, or one bracket. -/
def isNegligible (cs : List Char) : Bool :=
  match trim cs with
  | '/' :: '/' :: rest => !(rest.head? == some '/' || rest.head? == some '!')
  | [] => true
  | [c] => "\x7b\x7d()[]".toList.contains c
  | _ => false

/-- The line of that number. -/
def lineNumbered? (lines : List SourceLine) (number : Nat) : Option SourceLine :=
  lines.find? fun l => l.number == number

/-- Whether there is a line of that number, and it counts or not. -/
def isLine (lines : List SourceLine) (number : Nat) (negligible : Bool) : Bool :=
  (lineNumbered? lines number).any fun l => isNegligible l.chars == negligible

/-- The strokes of a span with the numbers of their lines. The bar is drawn at up to three lines
behind the first, less those at their end that do not count, and at the line before the last. -/
def Span.strokes (lines : List SourceLine) (s : Span) : List (Nat × Stroke) :=
  let first := s.start.line
  let last := s.stop.line
  if s.isRepeated then [(last, s.closing)]
  else
    let middle := min (first + 4) last
    let between := (List.range' first (middle - first)).reverse
    let reach := match between.find? fun n => isLine lines n false with
      | some n => n + 1
      | none => first
    let early := (List.range' (first + 1) (reach - (first + 1))).map fun n => (n, s.passing)
    let late := if middle < last - 1 && !isLine lines (last - 1) true
      then [(last - 1, s.passing)] else []
    (first, s.opening) :: early ++ late ++ [(last, s.closing)]

/-! ### Excerpts -/

/-- A line with what is to be drawn on it. -/
structure MarkedLine where
  line : SourceLine
  strokes : List Stroke
deriving DecidableEq, Repr, Inhabited

/-- The stroke of a mark if it stays in one line, else its span. -/
def Mark.split (lines : List SourceLine) (m : Mark) : Stroke ⊕ Span :=
  let (start, stop) := spotsOf lines m.extent
  let label := m.label.toList
  if start.line = stop.line then
    let stop := if start.column = stop.column then { stop with column := stop.column + 1 } else stop
    .inl ⟨start, stop, label, m.isPrimary, .whole⟩
  else .inr ⟨1, start, stop, label, m.isPrimary, false⟩

/-- A part of a source. -/
structure Excerpt where
  /-- All lines of the source. -/
  lines : List SourceLine
  /-- The lines on which something is drawn. -/
  marked : List MarkedLine
  /-- The number of columns for bars. -/
  depth : Nat
deriving Repr, Inhabited

/-- The excerpt that shows the marks in a source. -/
def excerpt (source : String) (marks : List Mark) : Excerpt :=
  let lines := sourceLines source
  let parts := marks.map (Mark.split lines)
  let single := parts.filterMap fun
    | .inl stroke => some (stroke.start.line, stroke)
    | .inr _ => none
  let spans := Span.arranged <| parts.filterMap fun
    | .inl _ => none
    | .inr span => some span
  let strokes := single ++ spans.flatMap (Span.strokes lines)
  let marked := lines.map fun line =>
    ⟨line, (strokes.filter fun stroke => stroke.1 == line.number).map Prod.snd⟩
  { lines
    marked := marked.filter fun line => !line.strokes.isEmpty
    depth := Span.maxDepth spans }

end ViewBinding.Display
