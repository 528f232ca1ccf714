import ViewBinding.Java.Name

/-!
# Names of declared types

A declared type is named by its package and the chain of the types that enclose it, the outermost
first: `app.ui.Outer.Inner` is the type `Inner` in `Outer` in the package `app.ui`. The chain is
never empty, so `ViewBinding.Java.TypeName` keeps its last link apart.

A dotted text does not say where its package ends. `ViewBinding.Java.TypeName.guess?` reads it by
the convention on capitals: the segments before the first that starts with an upper-case letter
are the package, and all others have to start with one.
-/

namespace ViewBinding.Java

open Text

/-- The name of a declared type. -/
structure TypeName where
  /-- The package, empty for the default package. -/
  package : String
  /-- The simple names of the enclosing types, the outermost first. -/
  enclosing : List String
  /-- The simple name of the type itself. -/
  simple : String
deriving DecidableEq, Repr, Inhabited

namespace TypeName

/-- The type of that name that stands directly in the package. -/
def topLevel (package simple : String) : TypeName :=
  ⟨package, [], simple⟩

/-- The simple names from the outermost enclosing type to the type itself. -/
def nesting (t : TypeName) : List String :=
  t.enclosing ++ [t.simple]

/-- The type with the given nesting; there is none for the empty list. -/
def ofNesting? (package : String) (names : List String) : Option TypeName :=
  match names.getLast? with
  | none => none
  | some simple => some ⟨package, names.dropLast, simple⟩

/-- The type of that simple name declared inside `t`. -/
def member (t : TypeName) (simple : String) : TypeName :=
  ⟨t.package, t.nesting, simple⟩

/-- The name as written inside the same package: `Outer.Inner`. -/
def relative (t : TypeName) : String :=
  dotted t.nesting

/-- The name with its package in front: `app.ui.Outer.Inner`. -/
def qualified (t : TypeName) : String :=
  if t.package = "" then t.relative else t.package ++ "." ++ t.relative

/-- Whether a segment starts with an upper-case ASCII letter. -/
def isCapital (segment : String) : Bool :=
  match segment.toList with
  | [] => false
  | c :: _ => c.isUpper

/-- Reads a dotted name, taking the segments before the first capital one for the package. -/
def guess? (s : String) : Option TypeName :=
  let names := segments s
  let package := names.takeWhile fun name => !isCapital name
  let types := names.dropWhile fun name => !isCapital name
  if names.all isIdentifier && types.all isCapital then ofNesting? (dotted package) types
  else none

/-- By package, then by the nesting, both in the order of code points. -/
instance : Ord TypeName where
  compare s t := (compare s.package t.package).then (compare s.nesting t.nesting)

@[simp] theorem nesting_topLevel (package simple : String) :
    (topLevel package simple).nesting = [simple] := rfl

@[simp] theorem nesting_member (t : TypeName) (simple : String) :
    (t.member simple).nesting = t.nesting ++ [simple] := rfl

theorem nesting_ne_nil (t : TypeName) : t.nesting ≠ [] := by
  simp [nesting]

theorem ofNesting?_nesting (t : TypeName) : ofNesting? t.package t.nesting = some t := by
  simp [ofNesting?, nesting]

theorem nesting_of_ofNesting? {package : String} {names : List String} {t : TypeName}
    (h : ofNesting? package names = some t) : t.package = package ∧ t.nesting = names := by
  unfold ofNesting? at h
  split at h
  · cases h
  · rename_i simple hs
    cases h
    obtain ⟨front, rfl⟩ := List.getLast?_eq_some_iff.mp hs
    simp [nesting]

end TypeName

end ViewBinding.Java
