import ViewBinding.Parsing.Rule

/-!
# The expressions of Java

The rules of literals, operators and all other expressions. The weights of
`ViewBinding.Java.Language.Weight` say how strongly an operator binds.
-/

namespace ViewBinding.Java.Language

open Parsing Parsing.Rule

/-- A kind of tokens stands for itself in a rule. -/
scoped instance ruleOfToken : Coe String Rule := ⟨Rule.token⟩

/-! ### Weights -/

namespace Weight

def assignment : Int := 1
def declaration : Int := 2
def elementValue : Int := 2
def ternary : Int := 3
def or : Int := 4
def and : Int := 5
def bitOr : Int := 6
def bitXor : Int := 7
def bitAnd : Int := 8
def equality : Int := 9
def typeArguments : Int := 10
def comparison : Int := 10
def shift : Int := 11
def sum : Int := 12
def product : Int := 13
def cast : Int := 14
def unary : Int := 15
def classLiteral : Int := 17

end Weight

/-! ### Parts of rules -/

/-- A name: an identifier, or one of the keywords that may be used as names. -/
def anyName : Rule :=
  alt "identifier" (rule "reservedName")

/-- The rule with commas in between. -/
def listed (r : Rule) : Rule :=
  separated r ","

/-- The rule with commas in between, or nothing. -/
def listedOrNone (r : Rule) : Rule :=
  optional (listed r)

/-- Any number of annotations. -/
def annotations : Rule :=
  many (rule "annotationUse")

/-- An identifier that is a type. -/
def typeName : Rule :=
  called "type_identifier" "identifier"

/-! ### Literals -/

/-- The rules of literals. -/
def literals : List Definition := [
  { name := "literal", standing := .family,
    rule := choice ["decimal_integer_literal", "hex_integer_literal", "octal_integer_literal",
      "binary_integer_literal", "decimal_floating_point_literal", "hex_floating_point_literal",
      "true", "false", "character_literal", rule "text", "null_literal"] },
  { name := "text", rule := alt (rule "plainText") (rule "textBlock") },
  { name := "plainText", standing := .hidden,
    rule := chain ["\"",
      many (choice ["string_fragment", "escape_sequence", rule "interpolation"]), "\""] },
  { name := "textBlock", standing := .hidden,
    rule := chain ["\"\"\"",
      many (choice [rule "blockPart", rule "escapePart", rule "interpolation"]), "\"\"\""] },
  { name := "blockPart",
    rule := rightward 0 (alt "block fragment" (seq "block quote" (many "block fragment"))) },
  { name := "interpolation", rule := chain ["\\\x7b", rule "expression", "\x7d"] },
  { name := "escapePart", standing := .hidden,
    rule := alt (weighing 2 "stray escape") (weighing 1 "escape_sequence") }]

/-! ### Operators -/

/-- The binary operators with their weights. -/
def binaryOperators : List (String × Int) := [
  (">", Weight.comparison), ("<", Weight.comparison), (">=", Weight.comparison),
  ("<=", Weight.comparison), ("==", Weight.equality), ("!=", Weight.equality),
  ("&&", Weight.and), ("||", Weight.or), ("+", Weight.sum), ("-", Weight.sum),
  ("*", Weight.product), ("/", Weight.product), ("&", Weight.bitAnd), ("|", Weight.bitOr),
  ("^", Weight.bitXor), ("%", Weight.product), ("<<", Weight.shift), (">>", Weight.shift),
  (">>>", Weight.shift)]

/-- The operators of assignments. -/
def assignmentOperators : List Rule :=
  ["=", "+=", "-=", "*=", "/=", "&=", "|=", "^=", "%=", "<<=", ">>=", ">>>="].map Rule.token

/-- The rules of operators. -/
def operations : List Definition := [
  { name := "expression", standing := .family,
    rule := choice [rule "assignment", rule "binary", rule "instanceTest", rule "lambda",
      rule "ternary", rule "update", rule "primary", rule "unary", rule "cast",
      rule "switchExpression"] },
  { name := "cast",
    rule := weighing Weight.cast (alt
      (chain ["(", as "type" (rule "type"), ")", as "value" (rule "expression")])
      (chain ["(", separated (as "type" (rule "type")) "&", ")",
        as "value" (alt (rule "primary") (rule "lambda"))])) },
  { name := "assignment",
    rule := rightward Weight.assignment (chain [
      as "left" (choice ["identifier", rule "reservedName", rule "fieldAccess",
        rule "arrayAccess"]),
      as "operator" (choice assignmentOperators), as "right" (rule "expression")]) },
  { name := "binary",
    rule := choice (binaryOperators.map fun (operator, weight) =>
      leftward weight (chain [as "left" (rule "expression"), as "operator" operator,
        as "right" (rule "expression")])) },
  { name := "instanceTest",
    rule := weighing Weight.comparison (chain [as "left" (rule "expression"), "instanceof",
      optional "final",
      alt (seq (as "right" (rule "type")) (optional (as "name" anyName)))
        (as "pattern" (rule "recordPattern"))]) },
  { name := "lambda",
    rule := chain [
      as "parameters" (choice ["identifier", rule "parameters", rule "inferredParameters",
        rule "reservedName"]),
      "->", as "body" (alt (rule "expression") (rule "block"))] },
  { name := "inferredParameters", rule := chain ["(", listed anyName, ")"] },
  { name := "ternary",
    rule := rightward Weight.ternary (chain [as "condition" (rule "expression"), "?",
      as "consequence" (rule "expression"), ":", as "alternative" (rule "expression")]) },
  { name := "unary",
    rule := choice (["+", "-", "!", "~"].map fun (operator : String) =>
      leftward Weight.unary (seq (as "operator" operator) (as "operand" (rule "expression")))) },
  { name := "update",
    rule := leftward Weight.unary (choice [seq (rule "expression") "++",
      seq (rule "expression") "--", seq "++" (rule "expression"),
      seq "--" (rule "expression")]) }]

/-! ### Primary expressions -/

/-- The rules of what operators apply to. -/
def primaries : List Definition := [
  { name := "primary", standing := .family,
    rule := choice [rule "literal", rule "classLiteral", "this", "identifier",
      rule "reservedName", rule "parenthesized", rule "objectCreation", rule "fieldAccess",
      rule "arrayAccess", rule "call", rule "methodReference", rule "arrayCreation",
      rule "template"] },
  { name := "arrayCreation",
    rule := rightward 0 (chain ["new", annotations, as "type" (rule "simpleType"),
      alt
        (seq (as "dimensions" (many1 (rule "sizedDimension")))
          (as "dimensions" (optional (rule "dimensions"))))
        (seq (as "dimensions" (rule "dimensions")) (as "value" (rule "arrayInitializer")))]) },
  { name := "sizedDimension", rule := chain [annotations, "[", rule "expression", "]"] },
  { name := "parenthesized", rule := chain ["(", rule "expression", ")"] },
  { name := "classLiteral",
    rule := deserving Weight.classLiteral (chain [rule "plainType", ".", "class"]) },
  { name := "objectCreation",
    rule := alt (rule "instanceCreation")
      (chain [rule "primary", ".", rule "instanceCreation"]) },
  { name := "instanceCreation", standing := .hidden,
    rule := rightward 0 (chain ["new",
      alt (chain [annotations, as "type_arguments" (rule "typeArguments"), annotations])
        annotations,
      as "type" (rule "simpleType"), as "arguments" (rule "arguments"),
      optional (rule "classBody")]) },
  { name := "fieldAccess",
    rule := chain [as "object" (alt (rule "primary") "super"), optional (seq "." "super"), ".",
      as "field" (choice ["identifier", rule "reservedName", "this"])] },
  { name := "template",
    rule := chain [as "template_processor" (rule "primary"), ".",
      as "template_argument" (rule "text")] },
  { name := "arrayAccess",
    rule := chain [as "array" (rule "primary"), "[", as "index" (rule "expression"), "]"] },
  { name := "call",
    rule := seq
      (alt (as "name" anyName)
        (chain [as "object" (alt (rule "primary") "super"), ".", optional (seq "super" "."),
          as "type_arguments" (optional (rule "typeArguments")), as "name" anyName]))
      (as "arguments" (rule "arguments")) },
  { name := "arguments", rule := chain ["(", listedOrNone (rule "expression"), ")"] },
  { name := "methodReference",
    rule := chain [choice [rule "type", rule "primary", "super"], "::",
      optional (rule "typeArguments"), alt "new" "identifier"] },
  { name := "typeArguments",
    rule := chain ["<", listedOrNone (alt (rule "type") (rule "wildcard")), ">"] },
  { name := "wildcard", rule := chain [annotations, "?", optional (rule "wildcardBounds")] },
  { name := "wildcardBounds", standing := .hidden,
    rule := alt (seq "extends" (rule "type")) (seq "super" (rule "type")) },
  { name := "dimensions",
    rule := rightward 0 (many1 (chain [annotations, "[", "]"])) }]

/-! ### Switches and patterns -/

/-- The rules of switches. -/
def switches : List Definition := [
  { name := "switchExpression",
    rule := chain ["switch", as "condition" (rule "parenthesized"),
      as "body" (rule "switchBlock")] },
  { name := "switchBlock",
    rule := chain ["\x7b", alt (many (rule "switchGroup")) (many (rule "switchRule")), "\x7d"] },
  { name := "switchGroup",
    rule := leftward 0 (seq (many1 (seq (rule "switchLabel") ":")) (many (rule "statement"))) },
  { name := "switchRule",
    rule := chain [rule "switchLabel", "->",
      choice [rule "expressionStatement", rule "throwStatement", rule "block"]] },
  { name := "switchLabel",
    rule := alt
      (chain ["case", alt (rule "pattern") (listed (rule "expression")),
        optional (rule "guard")])
      "default" },
  { name := "pattern", rule := alt (rule "typePattern") (rule "recordPattern") },
  { name := "typePattern", rule := seq (rule "plainType") anyName },
  { name := "recordPattern",
    rule := seq (choice ["identifier", rule "reservedName", rule "genericType"])
      (rule "recordPatternBody") },
  { name := "recordPatternBody",
    rule := chain ["(",
      listedOrNone (alt (rule "recordPatternComponent") (rule "recordPattern")), ")"] },
  { name := "recordPatternComponent",
    rule := alt "underscore_pattern" (seq (rule "plainType") anyName) },
  { name := "guard", rule := seq "when" (rule "expression") }]

/-- The rules of expressions. -/
def expressions : List Definition :=
  literals ++ operations ++ primaries ++ switches

end ViewBinding.Java.Language
