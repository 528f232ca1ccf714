import ViewBinding.Java.Plain
import ViewBinding.Java.Tolerant

/-!
# From texts to trees

Every text has a syntax tree. The tree of a plain text is read directly; all other texts, among them
those that are not Java, are read by the table of the language.
-/

namespace ViewBinding.Java

/-- The syntax tree of a text. -/
def Node.ofText (source : String) : Node :=
  match Plain.tree? source with
  | some root => root
  | none => Tolerant.tree source

end ViewBinding.Java
