import ViewBinding.Text.Lowercase

/-!
# Names inside a companion class

The companion of a type is named after it, and so is the parameter of its method. The parameter
starts with an underscore, which keeps it clear of reserved words once its first letter is in
lower case: the parameter for `Class` is `_class`.
-/

namespace ViewBinding.Companion

open Text

/-- The simple name with its first character in lower case. -/
def lowerFirst (simple : String) : String :=
  String.ofList (lowercaseFirst simple.toList)

/-- The parameter of the method that binds a type of that simple name. -/
def parameterName (simple : String) : String :=
  "_" ++ lowerFirst simple

/-- The simple name of the companion of a type of that simple name. -/
def companionName (simple : String) : String :=
  simple ++ "ViewBinding"

/-- The method of every companion. -/
def methodName : String := "bind"

theorem companionName_injective {s t : String} (h : companionName s = companionName t) :
    s = t := by
  simpa [companionName] using h

end ViewBinding.Companion
