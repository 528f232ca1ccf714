import ViewBinding.Text.Pieces

/-!
# Paths

A path is kept as it is written, for that is how it is shown. What it means are its components:
empty pieces and pieces that are a lone full stop do not count, except that a path may start with
a full stop. Two paths with the same components are the same for everything but being shown, and
paths are ordered by their components, not by their texts.
-/

namespace ViewBinding.Files

open Text

/-- A path as it is written. -/
structure Path where
  text : String
deriving DecidableEq, Repr, Inhabited

/-- A component of a path. -/
inductive Component
  /-- The root directory. -/
  | root
  /-- A full stop at the start of a path. -/
  | here
  /-- The directory above. -/
  | up
  | name (text : String)
deriving DecidableEq, Repr, Inhabited

namespace Component

/-- The place of the sort of component in their order. -/
def rank : Component → Nat
  | root => 0
  | here => 1
  | up => 2
  | name _ => 3

/-- The name, empty for the other components. -/
def word : Component → String
  | name text => text
  | _ => ""

/-- Names come last and are ordered by their code points. -/
instance : Ord Component where
  compare a b := (compare a.rank b.rank).then (compare a.word b.word)

/-- The component that a piece of a path stands for, if any. -/
def ofPiece? : List Char → Option Component
  | [] => none
  | ['.'] => none
  | ['.', '.'] => some up
  | piece => some (name (String.ofList piece))

end Component

namespace Path

/-- Whether the path starts at the root directory. -/
def isAbsolute (p : Path) : Bool :=
  p.text.toList.head? == some '/'

/-- The pieces of the path after the root directory. -/
def body (p : Path) : List (List Char) :=
  pieces '/' (if p.isAbsolute then p.text.toList.tail else p.text.toList)

/-- The components of a path. -/
def components (p : Path) : List Component :=
  if p.isAbsolute then .root :: p.body.filterMap Component.ofPiece?
  else
    match p.body with
    | ['.'] :: rest => .here :: rest.filterMap Component.ofPiece?
    | all => all.filterMap Component.ofPiece?

/-- Whether the path holds a null character. -/
def hasNull (p : Path) : Bool :=
  p.text.toList.contains '\x00'

/-- By components. -/
instance : Ord Path where
  compare p q := compare p.components q.components

/-- Whether two paths have the same components. -/
def same (p q : Path) : Bool :=
  p.components == q.components

/-- The path that leads from `p` on to `next`; an absolute text replaces `p`. -/
def push (p : Path) (next : String) : Path :=
  if (Path.mk next).isAbsolute then ⟨next⟩
  else if p.text.toList.getLast?.all (· == '/') then ⟨p.text ++ next⟩
  else ⟨p.text ++ "/" ++ next⟩

/-- The pieces up to the last that stands for a component. -/
def trimmed (absolute : Bool) (all : List (List Char)) : List (List Char) :=
  let trim (ps : List (List Char)) :=
    (ps.reverse.dropWhile fun piece => piece == [] || piece == ['.']).reverse
  match absolute, all with
  | false, ['.'] :: rest => ['.'] :: trim rest
  | _, _ => trim all

/-- The path without its last component. -/
def parent? (p : Path) : Option Path :=
  match trimmed p.isAbsolute p.body with
  | [] => none
  | all =>
    let front := String.ofList (joinPieces '/' (trimmed p.isAbsolute all.dropLast))
    some ⟨if p.isAbsolute then "/" ++ front else front⟩

/-- What follows the last full stop of the last name, if anything stands before it. -/
def extension? (p : Path) : Option String :=
  match p.components.getLast? with
  | some (.name text) =>
    match (pieces '.' text.toList).reverse with
    | last :: before :: front =>
      if before = [] && front = [] then none else some (String.ofList last)
    | _ => none
  | _ => none

end Path

end ViewBinding.Files
