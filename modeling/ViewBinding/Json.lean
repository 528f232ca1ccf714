/-!
# JSON values

The values of JSON texts. An object keeps its members in the order of the text, repeated keys
included, for a reader may have to refuse them. A number is kept as an integer if it is written as
one and fits into 64 bits; of all others only the fact that there was one is kept.
-/

namespace ViewBinding

/-- A JSON value. -/
inductive Json
  | null
  | bool (b : Bool)
  /-- A number written as an integer that fits into 64 bits. -/
  | int (n : Int)
  /-- Any other number. -/
  | real
  | string (s : String)
  | array (elements : List Json)
  | object (members : List (String × Json))
deriving Repr, Inhabited

namespace Json

/-- The text of a string. -/
def string? : Json → Option String
  | string s => some s
  | _ => none

/-- The values of the members of that key. -/
def valuesOf (members : List (String × Json)) (key : String) : List Json :=
  (members.filter fun member => member.1 == key).map Prod.snd

end Json

end ViewBinding
