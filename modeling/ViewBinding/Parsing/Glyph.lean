import ViewBinding.Text.Blank
import ViewBinding.Text.Letter

/-!
# Classes of characters

The tokens of a language look at a character only to ask whether it is a given ASCII character, a
letter, a character that may follow in a word, or the sign `¢`. Characters about which all these
questions have the same answer are of one class: `ViewBinding.Parsing.Glyph.ofChar` is the number
of the class, and `ViewBinding.Parsing.Glyph.sample` is a character of it. A set of classes is a
number with one bit per class.
-/

namespace ViewBinding.Parsing.Glyph

open Text

/-- The number of classes. -/
def count : Nat := 132

/-- The class of a character: an ASCII character is a class of its own. -/
def ofChar (c : Char) : Nat :=
  if c.toNat < 128 then c.toNat
  else if isLetter c then 128
  else if isLetterExtend c then 129
  else if c == '¢' then 130
  else 131

/-- A character of the class. -/
def sample (glyph : Nat) : Char :=
  if glyph < 128 then Char.ofNat glyph
  else if glyph = 128 then 'é'
  else if glyph = 129 then '·'
  else if glyph = 130 then '¢'
  else '€'

/-- The set of a single class. -/
def single (glyph : Nat) : Nat :=
  Nat.shiftLeft 1 glyph

/-- The set of all classes. -/
def all : Nat :=
  single count - 1

/-- The set of the classes whose characters are accepted. -/
def accepted (accepts : Char → Bool) : Nat :=
  (List.range count).foldl (fun glyphs glyph =>
    if accepts (sample glyph) then glyphs ||| single glyph else glyphs) 0

/-- The classes of white space. -/
def spaces : Nat :=
  accepted isSpace

end ViewBinding.Parsing.Glyph
