import ViewBinding.Java.Language.Declarations
import ViewBinding.Java.Language.Statements
import ViewBinding.Java.Language.Tokens

/-!
# The language of Java texts

`ViewBinding.Java.language` describes Java for texts that may have faults. A text is a sequence of
statements, among which the declarations of packages, imports and types are counted; method
declarations may stand among them.
-/

namespace ViewBinding.Java

open Parsing Parsing.Rule

namespace Language

/-- The rules of whole texts. -/
def texts : List Definition := [
  { name := "program", rule := many (rule "topLevel") },
  { name := "topLevel", standing := .hidden, rule := alt (rule "statement") (rule "method") }]

end Language

/-- The description of Java. -/
def language : Parsing.Language where
  terminals := Language.terminals
  extras := ["line_comment", "block_comment"]
  definitions := Language.texts ++ Language.expressions ++ Language.statements
    ++ Language.declarations

end ViewBinding.Java
