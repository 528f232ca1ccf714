import ViewBinding.Companion.Name
import ViewBinding.Files.Path
import ViewBinding.Grouping

/-!
# Companion classes

The companion of a type is a class in the same package with one method, which assigns every field
of the type that is bound. `ViewBinding.Companion.ofGroup?` makes it from the group of the type.
Companions are named after simple names, so two types of one package may have companions of one
name; `ViewBinding.Companion.ofGroups` keeps the first of them and reports the others.
-/

namespace ViewBinding

open Java Text Files

/-- The assignment of one field. -/
structure Assignment where
  /-- The variable whose field is assigned. -/
  target : String
  field : String
  /-- The type to cast to. -/
  type : String
  /-- The id of the widget. -/
  id : Int32
deriving DecidableEq, Repr, Inhabited

/-- The parameter of a method. -/
structure Parameter where
  type : String
  name : String
deriving DecidableEq, Repr, Inhabited

/-- The method of a companion. -/
structure BindMethod where
  name : String
  parameter : Parameter
  statements : List Assignment
deriving DecidableEq, Repr, Inhabited

/-- A companion class. -/
structure Companion where
  package : String
  /-- The simple name of the class. -/
  name : String
  /-- The type whose companion it is. -/
  owner : TypeName
  /-- The imports on demand. -/
  imports : List String
  method : BindMethod
deriving DecidableEq, Repr, Inhabited

/-! ### The companion of a group -/

namespace Group

/-- The assignment of a field to the variable `target`. -/
def assignment (target : String) (f : BoundField) : Assignment :=
  ⟨target, f.name, f.type.text, f.id⟩

/-- The method that binds the fields; there is none without fields. -/
def method? (g : Group) : Option BindMethod :=
  match g.fields with
  | [] => none
  | fields =>
    let target := Companion.parameterName g.owner.simple
    some ⟨Companion.methodName, ⟨g.owner.relative, target⟩, fields.map (assignment target)⟩

end Group

namespace Companion

/-- The name of the class with its package in front. -/
def qualified (c : Companion) : String :=
  if c.package = "" then c.name else c.package ++ "." ++ c.name

/-- Where the class is stored below the root of generated classes: one directory for each
non-empty segment of the package. -/
def path (c : Companion) : Path :=
  let directories := (segments c.package).filter fun segment => segment ≠ ""
  (directories.foldl Path.push ⟨""⟩).push (c.name ++ ".java")

/-- Puts a text where it belongs in a strictly ascending list. -/
def insertImport (s : String) : List String → List String
  | [] => [s]
  | t :: ts => if s < t then s :: t :: ts else if s = t then t :: ts else t :: insertImport s ts

/-- The imports on demand that fields need in a class of that package, in ascending order. -/
def importsOf (package : String) (fields : List BoundField) : List String :=
  let needed := (fields.flatMap fun f => f.type.imports).filter fun name => name ≠ package
  needed.foldr insertImport []

/-- The companion of the type of a group; a group without fields has none. -/
def ofGroup? (g : Group) : Option Companion :=
  g.method?.map fun method =>
    { package := g.owner.package
      name := companionName g.owner.simple
      owner := g.owner
      imports := importsOf g.owner.package g.fields
      method }

/-! ### The companions of all groups -/

/-- The finding on a companion whose name the companion of an earlier group has. -/
def clash (c : Companion) (earlier later : Group) : Finding :=
  .of .duplicateGeneratedType later.place?
    (some ("`" ++ c.qualified ++ "` would be generated for both `" ++ earlier.owner.relative
      ++ "` and `" ++ later.owner.relative ++ "`"))
    (earlier.place?.map fun place =>
      ⟨"`" ++ earlier.owner.relative ++ "` is bound here", place⟩).toList

/-- The companions of groups and the findings on those that are left out, given the qualified
names in use and the groups that use them. -/
def ofGroupsAfter (used : List (String × Group)) : Grouping → List Companion × Report
  | [] => ([], [])
  | g :: groups =>
    match ofGroup? g with
    | none => ofGroupsAfter used groups
    | some c =>
      match used.find? fun claim => claim.1 == c.qualified with
      | some (_, earlier) =>
        let (companions, report) := ofGroupsAfter used groups
        (companions, c.clash earlier g :: report)
      | none =>
        let (companions, report) := ofGroupsAfter (used ++ [(c.qualified, g)]) groups
        (c :: companions, report)

/-- The companions of groups, in order, and the findings on those that are left out because
their name is in use. -/
def ofGroups (groups : Grouping) : List Companion × Report :=
  ofGroupsAfter [] groups

end Companion

end ViewBinding
