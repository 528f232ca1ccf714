import ViewBinding.Text.Blank

/-!
# The text of a type

A type is copied from a source or a manifest as text, and written in one form whatever its layout
was: a run of white space becomes one space, a comma asks for a space as white space does, and no
space is written in front of `.`, `<`, `>`, `[`, `]` and a comma or behind `.`, `<`, `[` and `(`.
`ViewBinding.Java.TypeText.tidy` is one pass over the characters that remembers whether white space
is owed and which character was written last.
-/

namespace ViewBinding.Java.TypeText

open Text

/-- Whether no space is written in front of `c`. -/
def hugsLeft (c : Char) : Bool :=
  c == '.' || c == '<' || c == '>' || c == '[' || c == ']' || c == ','

/-- Whether no space is written after `c`. -/
def hugsRight (c : Char) : Bool :=
  c == '.' || c == '<' || c == '[' || c == '('

/-- Whether an owed space is written between the character written last, if any, and `c`. -/
def needsSpace (last : Option Char) (c : Char) : Bool :=
  match last with
  | none => false
  | some l => !hugsLeft c && !hugsRight l

/-- The tidy form of `cs`, when white space is owed or not and `last` was written before. -/
def tidyFrom : Bool → Option Char → List Char → List Char
  | _, _, [] => []
  | owed, last, c :: cs =>
    if isBlank c then tidyFrom true last cs
    else if owed && needsSpace last c then ' ' :: c :: tidyFrom (c == ',') (some c) cs
    else c :: tidyFrom (c == ',') (some c) cs

/-- The text of a type in its one form: `Map< String ,View >` becomes `Map<String, View>`. -/
def tidy (s : String) : String :=
  String.ofList (tidyFrom false none s.toList)

@[simp] theorem tidyFrom_nil (owed : Bool) (last : Option Char) : tidyFrom owed last [] = [] :=
  rfl

/-- White space is only ever owed: how much of it there was does not matter. -/
theorem tidyFrom_blank {c : Char} (hc : isBlank c = true) (owed : Bool) (last : Option Char)
    (cs : List Char) : tidyFrom owed last (c :: cs) = tidyFrom true last cs := by
  simp [tidyFrom, hc]

end ViewBinding.Java.TypeText
