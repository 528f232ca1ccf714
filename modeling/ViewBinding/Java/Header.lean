import ViewBinding.Java.Tree
import ViewBinding.Text.Blank
import ViewBinding.Text.Dotted

/-!
# Packages and imports

What the package and import declarations of a text say. Static imports are left out, for they
bring no types. Names are taken from the text with the white space removed; of two declarations
that compete the later one counts.
-/

namespace ViewBinding.Java

open Text

/-- The package of a text and what it imports. -/
structure Header where
  package : String
  /-- The simple names of the imported types with their qualified names, the latest first. -/
  imports : List (String × String)
  /-- What is imported on demand, in order. -/
  onDemand : List String
deriving DecidableEq, Repr, Inhabited

namespace Header

/-- The dotted name in a declaration, without white space. -/
def nameIn? (source : String) (declaration : Node) : Option String :=
  (declaration.namedChildren.find? fun c => c.kind == .identifier || c.kind == .scopedName).map
    fun name => String.ofList (compact (name.textIn source).toList)

/-- The header with a statement of the text taken into account. -/
def add (source : String) (header : Header) (statement : Node) : Header :=
  match statement.kind, nameIn? source statement with
  | .packageDeclaration, some name => { header with package := name }
  | .importDeclaration, some name =>
    if (statement.childOf? (.sign "static")).isSome then header
    else if (statement.childOf? .asterisk).isSome then
      { header with onDemand := header.onDemand ++ [name] }
    else
      match (segments name).reverse with
      | simple :: _ :: _ => { header with imports := (simple, name) :: header.imports }
      | _ => header
  | _, _ => header

/-- The header of a text. -/
def ofTree (source : String) (root : Node) : Header :=
  root.children.foldl (add source) ⟨"", [], []⟩

/-- The qualified name of the imported type of that simple name. -/
def imported? (header : Header) (simple : String) : Option String :=
  (header.imports.find? fun entry => entry.1 == simple).map Prod.snd

end Header

end ViewBinding.Java
