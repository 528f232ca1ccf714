/-!
# The part of a line that is shown

Lines of a source may be longer than a terminal is wide, so only a window of their columns is
shown. `ViewBinding.Display.Margin.of` chooses the same window for all lines of an excerpt: white
space in front of all of them may go, and if that is not enough, the window is laid around what
is marked.
-/

namespace ViewBinding.Display

/-- The columns of a terminal. -/
def terminalWidth : Nat := 140

/-- What a window is chosen by; all are columns. -/
structure Bounds where
  /-- The white space in front of all lines and of all marks. -/
  indent : Nat
  /-- The first column that is marked. -/
  markStart : Nat
  /-- The column behind the last that is marked. -/
  markStop : Nat
  /-- The column behind the last mark together with its label. -/
  labelStop : Nat
  /-- The length of the longest line. -/
  longest : Nat
  /-- The columns that there are for the lines. -/
  width : Nat
deriving DecidableEq, Repr

/-- The window of columns that is shown. -/
structure Margin where
  start : Nat
  stop : Nat
  /-- The columns that there are. -/
  width : Nat
deriving DecidableEq, Repr

namespace Margin

/-- The columns that are kept free next to a mark. -/
def clearance : Nat := 6

/-- The window for these bounds. -/
def of (b : Bounds) : Margin :=
  let indent := b.indent - clearance
  let markStart := b.markStart - clearance
  let markStop := b.markStop + clearance
  let labelStop := b.labelStop + clearance
  let start := if indent > 20 then indent - 16 else 0
  let stop := max b.longest start
  if stop - start ≤ b.width then ⟨start, stop, b.width⟩
  else if labelStop - indent ≤ b.width then ⟨indent, indent + b.width, b.width⟩
  else if labelStop - markStart ≤ b.width then
    let start := markStart - (b.width - (labelStop - markStart)) / 2
    ⟨start, start + b.width, b.width⟩
  else if markStop - markStart ≤ b.width then
    let start := markStart - (b.width - (markStop - markStart)) / 5 * 2
    ⟨start, start + b.width, b.width⟩
  else ⟨markStart, markStop, b.width⟩

/-- Where the shown part of a line of that length starts. -/
def startIn (m : Margin) (length : Nat) : Nat :=
  min m.start length

/-- Where the shown part of a line of that length stops. -/
def stopIn (m : Margin) (length : Nat) : Nat :=
  if length - m.start ≤ m.width then length else min length m.stop

end Margin

end ViewBinding.Display
