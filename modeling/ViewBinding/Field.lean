import ViewBinding.Java.TypeName
import ViewBinding.Source

/-!
# Fields to bind

A `ViewBinding.BoundField` is a field that the companion of its declaring type assigns: its name,
the id of the widget it takes, and the type that the widget is cast to. The text of that type goes
into the companion as it is; if the text does not say by itself where the type is declared,
`ViewBinding.CastType.imports` holds the packages and types on whose members the declaring text
relied.
-/

namespace ViewBinding

open Java

/-- The type that a field is cast to. -/
structure CastType where
  /-- The type as the companion writes it. -/
  text : String
  /-- The imports on demand that may be needed to resolve it. -/
  imports : List String
deriving DecidableEq, Repr, Inhabited

/-- A field that is bound to a widget. -/
structure BoundField where
  /-- The type that declares the field. -/
  owner : TypeName
  name : String
  type : CastType
  /-- The id of the widget. -/
  id : Int32
  /-- Where the name of the field stands; entries of manifests have no place. -/
  place : Option Place
deriving DecidableEq, Repr, Inhabited

end ViewBinding
