/-!
# Places in a text

A place in a text is given in bytes of its UTF-8 form: `ViewBinding.Text.Extent` is a half-open
range of bytes. `ViewBinding.Text.Extent.textIn` is the part of a text that it covers, the empty
text if it does not start at a character.
-/

namespace ViewBinding.Text

/-- The half-open range of bytes from `start` to `stop`. -/
structure Extent where
  start : Nat
  stop : Nat
deriving DecidableEq, Repr, Inhabited

namespace Extent

/-- The number of bytes covered. -/
def size (e : Extent) : Nat :=
  e.stop - e.start

/-- The part of the text covered. -/
def textIn (e : Extent) (text : String) : String :=
  String.Pos.Raw.extract text ⟨e.start⟩ ⟨e.stop⟩

/-- From the start of the one to the end of the other. -/
def through (e f : Extent) : Extent :=
  ⟨e.start, f.stop⟩

end Extent

/-- The length of the characters in bytes of UTF-8. -/
def byteLength (cs : List Char) : Nat :=
  (cs.map Char.utf8Size).foldr (· + ·) 0

@[simp] theorem byteLength_nil : byteLength [] = 0 := rfl

@[simp] theorem byteLength_cons (c : Char) (cs : List Char) :
    byteLength (c :: cs) = c.utf8Size + byteLength cs := by
  simp [byteLength]

@[simp] theorem byteLength_append (cs ds : List Char) :
    byteLength (cs ++ ds) = byteLength cs + byteLength ds := by
  induction cs with
  | nil => simp
  | cons c cs ih => rw [List.cons_append, byteLength_cons, byteLength_cons, ih, Nat.add_assoc]

end ViewBinding.Text
