import ViewBinding.Text.Width

/-!
# Showing characters

Some characters of a source cannot be shown as they are: a tab takes four columns, control
characters are shown by their symbols, characters that change the direction of a text are shown as
unknown, and the joiner of width zero is left out.
-/

namespace ViewBinding.Display

open Text

/-- Whether the character changes the direction of a text. -/
def isDirectional (c : Char) : Bool :=
  (0x202A ≤ c.toNat && c.toNat ≤ 0x202E) || (0x2066 ≤ c.toNat && c.toNat ≤ 0x2069)

/-- What is shown for a character. -/
def shownChar (c : Char) : List Char :=
  if c = '\t' then [' ', ' ', ' ', ' ']
  else if c = '\n' then [c]
  else if c.toNat < 0x20 then [Char.ofNat (0x2400 + c.toNat)]
  else if c.toNat = 0x7F then ['␡']
  else if c.toNat = 0x200D then []
  else if isDirectional c then ['\uFFFD']
  else [c]

/-- What is shown for characters. -/
def shown (cs : List Char) : List Char :=
  cs.flatMap shownChar

/-- The columns that a character of a source takes. -/
def charColumns (c : Char) : Nat :=
  if c = '\t' then 4 else if isDirectional c then 1 else columns c

/-- The columns that characters of a source take. -/
def textColumns (cs : List Char) : Nat :=
  (cs.map charColumns).foldr (· + ·) 0

end ViewBinding.Display
