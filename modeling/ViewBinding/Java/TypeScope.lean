import ViewBinding.Java.Constants
import ViewBinding.Java.Header
import ViewBinding.Java.TypeText
import ViewBinding.Field

/-!
# Types as a companion names them

The companion of a type stands in the same package but in a text of its own, without the imports
of the declaring text. `ViewBinding.Java.TypeScope.cast` rewrites the text of a type for it: the
first name of every dotted run is replaced by the qualified name if it is imported, and by the
name relative to the package if it is a type declared in the same text. All else is kept; if a
kept name may be a type, the imports on demand go along.
-/

namespace ViewBinding.Java

open Text

/-- What the names of types in a text can refer to. -/
structure TypeScope where
  header : Header
  /-- The nestings of the types declared in the text. -/
  types : List (List String)
deriving Repr, Inhabited

namespace TypeScope

/-- Whether `c` belongs to a dotted run of names. -/
def isRunPart (c : Char) : Bool :=
  isNamePart c || c == '.'

/-- The text cut into its dotted runs and the single characters between them. -/
def runs : List Char → List (List Char)
  | [] => []
  | c :: cs =>
    match runs cs with
    | (d :: run) :: rest =>
      if isRunPart c && isRunPart d then (c :: d :: run) :: rest else [c] :: (d :: run) :: rest
    | rest => [c] :: rest

/-- The type declared in the text that a simple name stands for inside the type of that nesting. -/
def declaredType? (scope : TypeScope) (nesting : List String) (simple : String) :
    Option (List String) :=
  ((Constants.outward nesting ++ [[]]).map (· ++ [simple])).find? scope.types.contains

/-- The name relative to the package of the declared type that a simple name stands for. -/
def declared? (scope : TypeScope) (nesting : List String) (simple : String) : Option String :=
  (scope.declaredType? nesting simple).map dotted

/-- What a simple name is replaced by inside the type of that nesting. -/
def replacement? (scope : TypeScope) (nesting : List String) (simple : String) : Option String :=
  (scope.header.imported? simple).or (scope.declared? nesting simple)

/-- The first name of a dotted run, and the rest with the full stop in front. -/
def splitRun (run : List Char) : List Char × List Char :=
  (run.takeWhile (· ≠ '.'), run.dropWhile (· ≠ '.'))

/-- A run with its first name replaced, if there is a replacement. -/
def rewriteRun (scope : TypeScope) (nesting : List String) (run : List Char) : List Char :=
  if run.any isRunPart then
    match scope.replacement? nesting (String.ofList (splitRun run).1) with
    | some name => name.toList ++ (splitRun run).2
    | none => run
  else run

/-- Whether a run may be a type that the text does not say more about. -/
def isUnresolved (scope : TypeScope) (nesting : List String) (run : List Char) : Bool :=
  run.any isRunPart && (run.head?.any Char.isUpper)
    && (scope.replacement? nesting (String.ofList (splitRun run).1)).isNone

/-- The type to cast to for a type written inside the type of that nesting. -/
def cast (scope : TypeScope) (nesting : List String) (raw : String) : CastType :=
  let parts := runs (TypeText.tidy raw).toList
  { text := String.ofList (parts.flatMap (scope.rewriteRun nesting))
    imports := if parts.any (scope.isUnresolved nesting) then scope.header.onDemand else [] }

end TypeScope

end ViewBinding.Java
