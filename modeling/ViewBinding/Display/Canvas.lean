/-!
# A canvas of characters

Findings are drawn on a canvas: rows of cells, each with a character and a tone. A canvas grows
to the right and to the bottom where something is drawn; cells in between are blank.
`ViewBinding.Display.Canvas.text` is what is drawn, with control sequences around each run of cells
of one tone if it is to be colored.
-/

namespace ViewBinding.Display

/-- The tone of a cell. -/
inductive Tone
  | plain
  /-- For messages. -/
  | strong
  /-- For numbers, lines and context. -/
  | frame
  /-- For the finding itself, by its severity. -/
  | signal
deriving DecidableEq, Repr, Inhabited

/-- A place on a canvas. -/
structure Cell where
  char : Char
  tone : Tone
deriving DecidableEq, Repr, Inhabited

/-- A cell with nothing drawn on it. -/
def Cell.blank : Cell := ⟨' ', .plain⟩

/-- Rows of cells. -/
abbrev Canvas := Array (Array Cell)

namespace Canvas

/-- The canvas with at least `rows` rows. -/
def withRows (c : Canvas) (rows : Nat) : Canvas :=
  c ++ Array.replicate (rows - c.size) #[]

/-- Draws one character. -/
def putChar (c : Canvas) (row column : Nat) (tone : Tone) (char : Char) : Canvas :=
  (c.withRows (row + 1)).modify row fun cells =>
    (cells ++ Array.replicate (column + 1 - cells.size) Cell.blank).setIfInBounds column
      ⟨char, tone⟩

/-- Draws characters from a place on to the right. -/
def putChars (c : Canvas) (row column : Nat) (tone : Tone) : List Char → Canvas
  | [] => c
  | d :: ds => (c.putChar row column tone d).putChars row (column + 1) tone ds

/-- Draws a text from a place on to the right. -/
def putText (c : Canvas) (row column : Nat) (tone : Tone) (text : String) : Canvas :=
  c.putChars row column tone text.toList

/-- The number of cells in a row. -/
def rowSize (canvas : Canvas) (row : Nat) : Nat :=
  (canvas[row]?.map Array.size).getD 0

/-- Draws a text behind the last cell of a row. -/
def append (c : Canvas) (row : Nat) (tone : Tone) (text : String) : Canvas :=
  c.putText row (c.rowSize row) tone text

/-- Draws the character in each column from `start` to before `stop`. -/
def putRun (c : Canvas) (row start stop : Nat) (tone : Tone) (char : Char) : Canvas :=
  c.putChars row start tone (List.replicate (stop - start) char)

/-- Draws the character in each row from `start` to before `stop`. -/
def putColumn (c : Canvas) (start stop column : Nat) (tone : Tone) (char : Char) : Canvas :=
  (List.range' start (stop - start)).foldl (fun c row => c.putChar row column tone char) c

/-- Cuts the cells from `start` to before `stop` out of a row and draws the text in their place;
nothing happens if the row is not that long. -/
def replace (c : Canvas) (row start stop : Nat) (text : String) : Canvas :=
  if start = stop || c.rowSize row < start || c.rowSize row < stop then c
  else
    let cut : Canvas := c.modify row fun cells =>
      cells.extract 0 start ++ cells.extract (stop - text.length) cells.size
    cut.putText row start .frame text

/-! ### What is drawn -/

/-- The control sequences that start each tone; the empty text starts the plain one. -/
abbrev Codes := Tone → String

/-- The control sequence that ends a tone. -/
def endCode (codes : Codes) (tone : Tone) : String :=
  if codes tone = "" then "" else "\x1b[0m"

/-- The text of cells that follow a cell of that tone. -/
def rowText (codes : Codes) (current : Tone) : List Cell → String
  | [] => endCode codes current
  | cell :: cells =>
    if codes cell.tone = codes current then
      String.singleton cell.char ++ rowText codes current cells
    else
      endCode codes current ++ codes cell.tone ++ String.singleton cell.char
        ++ rowText codes cell.tone cells

/-- The text of the canvas, without a line feed at its end. -/
def text (codes : Codes) (c : Canvas) : String :=
  "\n".intercalate (c.toList.map fun row => rowText codes .plain row.toList)

end Canvas

end ViewBinding.Display
