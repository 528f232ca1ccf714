import ViewBinding.Companion.Layout
import ViewBinding.Files.Disk

/-!
# Storing companions

Companions are stored one after the other until one cannot be stored; those stored before it stay.
`ViewBinding.emit` does so for any way of storing. There are two: a `ViewBinding.Shelf` keeps the
texts in memory, and a `ViewBinding.Files.Disk` writes each to a file below a directory.
-/

namespace ViewBinding

open Files

/-- Which path could not be written, and why. -/
structure WriteError where
  path : Path
  fault : Fault
deriving DecidableEq, Repr

/-- The wording of an error. -/
def WriteError.message (e : WriteError) : String :=
  "failed to write '" ++ e.path.text ++ "': " ++ e.fault.message

/-- A way of storing the text of a companion. -/
abbrev Store (m : Type → Type) : Type :=
  Companion → String → m (Except WriteError Path)

/-- Stores the texts of companions up to the first that cannot be stored, and gives the paths
where they are. -/
def emit {m : Type → Type} [Monad m] (store : Store m) (l : Layout) :
    List Companion → m (Except WriteError (List Path))
  | [] => pure (.ok [])
  | c :: companions => do
    match ← store c (c.render l) with
    | .error e => pure (.error e)
    | .ok path =>
      match ← emit store l companions with
      | .error e => pure (.error e)
      | .ok paths => pure (.ok (path :: paths))

/-! ### In memory -/

/-- Texts by path, in the order in which the paths were first written. -/
abbrev Shelf := List (Path × String)

namespace Shelf

/-- Puts a text in the place of the one with that path or at the end. -/
def put (path : Path) (text : String) : Shelf → Shelf
  | [] => [(path, text)]
  | (p, old) :: shelf =>
    if p.same path then (p, text) :: shelf else (p, old) :: put path text shelf

/-- The text with that path. -/
def get? (shelf : Shelf) (path : Path) : Option String :=
  (shelf.find? fun entry => entry.1.same path).map Prod.snd

/-- Stores a companion under its path. -/
def store : Store (StateM Shelf) := fun c text => do
  modify (put c.path text)
  return .ok c.path

end Shelf

/-! ### On a disk -/

namespace Files.Disk

variable {m : Type → Type} [Monad m]

/-- Writes a file after creating its directory; an error names the one that fails. -/
def writeFile (d : Disk m) (path : Path) (text : String) : m (Except WriteError Path) := do
  let written : m (Except WriteError Path) := do
    match ← d.write path text with
    | .error fault => pure (.error ⟨path, fault⟩)
    | .ok () => pure (.ok path)
  match path.parent? with
  | none => written
  | some directory =>
    match ← d.makeDirectories directory with
    | .error fault => pure (.error ⟨directory, fault⟩)
    | .ok () => written

/-- Stores a companion in a file below the directory `root`. -/
def store (d : Disk m) (root : Path) : Store m :=
  fun c text => d.writeFile (root.push c.path.text) text

end Files.Disk

end ViewBinding
