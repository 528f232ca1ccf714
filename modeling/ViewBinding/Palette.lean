/-!
# Colors of a terminal

Generated classes can be shown on a terminal with their words colored by what they are. A
`ViewBinding.Palette` gives the control sequence of each `ViewBinding.Ink` and the one that ends a
color; without colors all of them are empty and painting does nothing.
-/

namespace ViewBinding

/-- What a piece of generated text is. -/
inductive Ink
  /-- A keyword. -/
  | keyword
  /-- The name of a type. -/
  | type
  /-- A view id. -/
  | literal
  /-- A comment. -/
  | dim
  /-- The end of a colored piece. -/
  | reset
deriving DecidableEq, Repr

/-- Whether text is colored or plain. -/
inductive Palette
  | plain
  | colored
deriving DecidableEq, Repr, Inhabited

namespace Palette

/-- The palette that colors if the flag says so. -/
def ofFlag (colored : Bool) : Palette :=
  if colored then .colored else .plain

/-- Whether the palette colors. -/
def isColored : Palette → Bool
  | plain => false
  | colored => true

/-- The control sequence of an ink. -/
def code : Palette → Ink → String
  | plain, _ => ""
  | colored, .keyword => "\x1b[35m"
  | colored, .type => "\x1b[34m"
  | colored, .literal => "\x1b[32m"
  | colored, .dim => "\x1b[2m"
  | colored, .reset => "\x1b[0m"

/-- The text in the color of the ink. -/
def paint (p : Palette) (ink : Ink) (text : String) : String :=
  if p.isColored then p.code ink ++ text ++ p.code .reset else text

@[simp] theorem paint_plain (ink : Ink) (text : String) : plain.paint ink text = text := rfl

@[simp] theorem isColored_ofFlag (b : Bool) : (ofFlag b).isColored = b := by
  cases b <;> rfl

end Palette

end ViewBinding
