import ViewBinding.Parsing.Glyph
import ViewBinding.Text.Extent

/-!
# Texts as a reader sees them

A `ViewBinding.Parsing.Page` is a text prepared for reading: the class of each of its characters,
and for each place between two characters how many characters, bytes and line breaks are in front
of it. Places are numbers of characters.
-/

namespace ViewBinding.Parsing

open Text

/-- How long a piece of a text is. -/
structure Measure where
  chars : Nat
  bytes : Nat
  lines : Nat
deriving DecidableEq, Repr, Inhabited

namespace Measure

/-- The length of nothing. -/
def zero : Measure := ⟨0, 0, 0⟩

instance : Add Measure where
  add a b := ⟨a.chars + b.chars, a.bytes + b.bytes, a.lines + b.lines⟩

/-- What is left of `a` after a piece of length `b`. -/
def minus (a b : Measure) : Measure :=
  ⟨a.chars - b.chars, a.bytes - b.bytes, a.lines - b.lines⟩

/-- The length of a character. -/
def ofChar (c : Char) : Measure :=
  ⟨1, c.utf8Size, if c = '\n' then 1 else 0⟩

end Measure

/-- A text prepared for reading. -/
structure Page where
  /-- The classes of the characters. -/
  glyphs : Array Nat
  /-- What is in front of each place. -/
  before : Array Measure
  /-- The place at which reading starts: behind a byte order mark. -/
  start : Nat

namespace Page

/-- The text of the characters. -/
def ofChars (cs : List Char) : Page where
  glyphs := (cs.map Glyph.ofChar).toArray
  before := cs.foldl (fun (before : Array Measure) c =>
    before.push ((before.back?.getD .zero) + .ofChar c)) #[.zero]
  start := if cs.head? = some '\uFEFF' then 1 else 0

/-- The number of characters. -/
def size (p : Page) : Nat :=
  p.glyphs.size

/-- What is in front of the place; at most the whole text. -/
def upTo (p : Page) (place : Nat) : Measure :=
  p.before.getD (min place p.size) .zero

/-- How long the piece between two places is. -/
def between (p : Page) (start stop : Nat) : Measure :=
  (p.upTo stop).minus (p.upTo start)

end Page

end ViewBinding.Parsing
