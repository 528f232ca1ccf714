import ViewBinding.Display.Drawing
import ViewBinding.Report
import ViewBinding.Text.Pieces

/-!
# Showing findings

A finding is shown as its severity and message, excerpts of the sources, and its hints.
`ViewBinding.Finding.panels` says what the excerpts show: one panel for the source of the finding,
in which its place and all related places of that source are marked, and one for each related
place in another source. A finding without a place has no panels.

`ViewBinding.Report.display` shows all findings of a report.
-/

namespace ViewBinding

open Text Display

/-! ### Panels -/

/-- An excerpt of a source to be shown. -/
structure Panel where
  /-- How the source is called. -/
  name : String
  content : String
  marks : List Mark
deriving DecidableEq, Repr, Inhabited

/-- The part of an extent that lies within the first `limit` bytes, widened by one byte if it is
empty and there is one. -/
def Text.Extent.clamp (e : Extent) (limit : Nat) : Extent :=
  let start := min e.start limit
  let stop := min e.stop limit
  if start = stop then ⟨start, min (start + 1) limit⟩ else ⟨start, stop⟩

/-- The extent to mark for a place. -/
def Place.markedExtent (p : Place) (sources : Sources) : Extent :=
  p.extent.clamp (sources.content p.source).utf8ByteSize

/-- A panel for the source of that number. -/
def panelOf (sources : Sources) (number : Nat) (marks : List Mark) : Panel :=
  ⟨sources.display number, sources.content number, marks⟩

/-- The mark of a related place. -/
def Related.mark (sources : Sources) (r : Related) : Mark :=
  ⟨r.place.markedExtent sources, r.message, false⟩

namespace Finding

/-- The panels of a finding. -/
def panels (sources : Sources) (f : Finding) : List Panel :=
  match f.place with
  | none => []
  | some place =>
    let here := f.related.filter fun r => r.place.source == place.source
    let elsewhere := f.related.filter fun r => r.place.source != place.source
    panelOf sources place.source
        (⟨place.markedExtent sources, f.message, true⟩ :: here.map (Related.mark sources))
      :: elsewhere.map fun r => panelOf sources r.place.source [r.mark sources]

end Finding

namespace Panel

/-- The excerpt that the panel shows. -/
def excerpt (p : Panel) : Excerpt :=
  Display.excerpt p.content p.marks

/-- The number of the last line that a mark reaches. -/
def lastLine (p : Panel) : Nat :=
  lineNumberAt p.content ((p.marks.map fun mark => mark.extent.stop).foldl max 0)

/-- The line and the column that stand above the excerpt: for the panel of the finding those of
its place, else those of the first mark on the first line. -/
def heading (p : Panel) (e : Excerpt) (isFirst : Bool) : String :=
  let isPrimary (s : Stroke) : Bool := s.isPrimary
  let line? := if isFirst then
      (e.marked.find? fun line => line.strokes.any isPrimary) <|> e.marked.head?
    else e.marked.head?
  match line? with
  | none => p.name
  | some line =>
    let stroke? := if isFirst then line.strokes.find? isPrimary <|> line.strokes.head?
      else line.strokes.head?
    let column := match stroke? with
      | some stroke => ":" ++ toString (stroke.start.char + 1)
      | none => ""
    p.name ++ ":" ++ toString line.line.number ++ column

/-- Draws the panel with its excerpt below what is drawn already. -/
def draw (f : Frame) (isFirst : Bool) (p : Panel) (e : Excerpt) (c : Canvas) : Canvas :=
  let c := if isFirst then c else drawRule f c.size c
  let row := c.size
  let c := c.putText row 0 .plain (String.ofList (List.replicate f.digits ' '))
  let c := c.append row .frame (if isFirst then "--> " else "::: ")
  let c := c.append row .plain (p.heading e isFirst)
  drawExcerpt f e (drawRule f (row + 1) c)

end Panel

/-! ### Messages -/

/-- The lines of a text. -/
def textLines (text : String) : List String :=
  (pieces '\n' text.toList).map String.ofList

/-- Draws the lines of a text from the row `row` on, the second and all after it behind `padding`
blanks. -/
def drawTextLines (row padding : Nat) (tone : Tone) : List String → Canvas → Canvas
  | [], c => c
  | line :: lines, c =>
    let c := c.append row tone line
    let c := match lines with
      | [] => c
      | _ => c.append (row + 1) .plain (String.ofList (List.replicate padding ' '))
    drawTextLines (row + 1) padding tone lines c

/-- Draws the severity and the message of a finding. -/
def drawTitle (f : Finding) (c : Canvas) : Canvas :=
  let row := c.size
  let c := (c.append row .signal f.severity.word).append row .strong ": "
  let message := String.ofList (shown f.message.toList)
  drawTextLines row (f.severity.word.length + 2) .strong (textLines message) c

/-- Draws a hint. -/
def drawHint (frame : Frame) (hint : String) (c : Canvas) : Canvas :=
  let row := c.size
  let c := c.putText row 0 .plain (String.ofList (List.replicate frame.digits ' '))
  let c := c.putText row frame.rule .frame "= "
  let c := (c.append row .strong "help").append row .plain ": "
  drawTextLines row (frame.digits + 3 + "help: ".length) .plain (textLines hint) c

/-! ### Findings -/

namespace Finding

/-- Draws a finding. -/
def draw (sources : Sources) (f : Finding) : Canvas :=
  let panels := (f.panels sources).map fun p => (p, p.excerpt)
  let last : Nat := (panels.map fun (p, _) => p.lastLine).foldl max 0
  let depth : Nat := (panels.map fun (_, e) => e.depth).foldl max 0
  let frame : Frame := ⟨if last = 0 then 0 else (toString last).length, depth⟩
  let c := drawTitle f #[]
  let c := (panels.zipIdx).foldl (fun c ((p, e), i) => p.draw frame (i == 0) e c) c
  let c := if f.hints.isEmpty then c else drawRule frame c.size c
  f.hints.foldl (fun c hint => drawHint frame hint c) c

/-- The control sequences for a finding of that severity. -/
def codes (colored : Bool) (severity : Severity) : Canvas.Codes
  | .plain => ""
  | .strong => if colored then "\x1b[1m" else ""
  | .frame => if colored then "\x1b[1m\x1b[94m" else ""
  | .signal =>
    if colored then
      match severity with
      | .error => "\x1b[1m\x1b[91m"
      | .warning => "\x1b[1m\x1b[33m"
    else ""

/-- A finding as it is shown. -/
def display (sources : Sources) (colored : Bool) (f : Finding) : String :=
  (f.draw sources).text (codes colored f.severity) ++ "\n"

end Finding

/-- The findings as they are shown, with an empty line between each two neighbours. -/
def Report.display (sources : Sources) (colored : Bool) (r : Report) : String :=
  "\n".intercalate (r.map (Finding.display sources colored))

end ViewBinding
