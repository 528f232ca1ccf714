import ViewBinding.Java.Grammar

/-!
# Plain texts

A text is plain if it only declares types and their fields and gives the fields values as constants
have them: numbers, names, parentheses and the operators of integers. Such a text is read directly,
rule by rule. `ViewBinding.Java.Plain.tree?` gives its tree; it refuses every other text, also one
that a word makes doubtful which is not a name everywhere.
-/

namespace ViewBinding.Java

/-- The rules that others refer to. -/
inductive Phrase
  | type
  | annotationUse
  | sum (level : Nat)
  | operand
  | typeDeclaration
deriving Repr

namespace Plain

open Grammar Text

/-! ### Words and names -/

/-- A keyword or a sign. -/
def sign (text : String) : Grammar Phrase :=
  spelled text (.sign text)

/-- Any of the keywords and signs. -/
def signs (texts : List String) : Grammar Phrase :=
  choice (texts.map sign)

/-- A construct without a kind of its own. -/
def plain (parts : List (Grammar Phrase)) : Grammar Phrase :=
  node .construct (chain parts)

/-- A name that stands for itself. -/
def identifier : Grammar Phrase :=
  name .identifier

/-- A dotted name. -/
def dottedName : Grammar Phrase :=
  grow identifier (wrap .scopedName (some .scope) (chain [sign ".", role .name identifier]))

/-! ### Types -/

/-- A primitive type. -/
def primitiveType : Grammar Phrase :=
  choice [
    plain [signs ["byte", "short", "int", "long", "char"]],
    plain [signs ["float", "double"]],
    spelled "boolean" .construct]

/-- The arguments of a generic type. -/
def typeArguments : Grammar Phrase :=
  let bound := choice [sign "extends", spelled "super" .construct]
  let wildcard := plain [sign "?", optional (chain [bound, rule .type])]
  plain [sign "<", optional (listOf (choice [wildcard, rule .type])), sign ">"]

/-- Array brackets, at least one pair. -/
def dimensions : Grammar Phrase :=
  let pair := chain [sign "[", sign "]"]
  role .dimensions (node .dimensions (chain [pair, many pair]))

/-- The rule of a type. -/
def type : Grammar Phrase :=
  let dotted := grow (name .construct) (wrap .construct none (chain [sign ".", name .construct]))
  let generic := extend dotted (wrap .construct none typeArguments)
  extend (choice [primitiveType, generic]) (wrap .construct none dimensions)

/-- Types with commas in between, after a keyword. -/
def typesAfter (keyword : String) : Grammar Phrase :=
  optional (plain [sign keyword, plain [listOf (rule .type)]])

/-! ### Expressions -/

/-- The binary operators, those that bind least first. Every operator is given by the signs it is
written with. -/
def operatorLevels : List (List (List String)) := [
  [["|"]], [["^"]], [["&"]], [["<<"], [">", ">", ">"], [">", ">"]], [["+"], ["-"]],
  [["*"], ["/"], ["%"]]]

/-- The rule of the sums, products and so on of one level, read from left to right. -/
def sum (level : Nat) : Grammar Phrase :=
  match operatorLevels[level]? with
  | none => rule .operand
  | some operators =>
    let next := rule (.sum (level + 1))
    grow next (wrap .binary (some .left) (chain [
      role .operator (choice (operators.map operator)), role .right next]))

/-- An expression. -/
def expression : Grammar Phrase :=
  rule (.sum 0)

/-- The rule of what operators apply to. A name in parentheses is refused, for it might be the type
of a cast. -/
def operand : Grammar Phrase :=
  let inner := Grammar.unless [.identifier, .fieldAccess] expression
  let primary := choice [
    number,
    identifier,
    choice (["true", "false", "null"].map fun word => spelled word .construct),
    node .parenthesized (chain [sign "(", inner, sign ")"])]
  choice [
    node .unary (chain [role .operator (signs ["+", "-", "~", "!"]),
      role .operand (rule .operand)]),
    grow primary (wrap .fieldAccess (some .object) (chain [sign ".", role .field identifier]))]

/-! ### Annotations and modifiers -/

/-- The arguments of an annotation. -/
def annotationArguments : Grammar Phrase :=
  let value := choice [rule .annotationUse, expression]
  let pair := node .elementPair (chain [role .key identifier, sign "=", role .value value])
  node .annotationArguments (choice [
    chain [sign "(", listOf pair, sign ")"],
    chain [sign "(", value, sign ")"],
    chain [sign "(", sign ")"]])

/-- The rule of an annotation. -/
def annotationUse : Grammar Phrase :=
  let start := chain [sign "@", role .name dottedName]
  choice [
    node .annotationUse (chain [start, role .arguments annotationArguments]),
    node .annotationMarker start]

/-- Modifiers, if there are any. -/
def modifiers : Grammar Phrase :=
  let modifier := choice [rule .annotationUse,
    signs ["public", "protected", "private", "abstract", "static", "final", "transient",
      "volatile"]]
  optional (node .modifiers (chain [modifier, many modifier]))

/-! ### Declarations -/

/-- A declaration of fields of the given kind. -/
def fields (kind : Kind) : Grammar Phrase :=
  let declarator := node .declarator (chain [role .name identifier, optional dimensions,
    optional (chain [sign "=", role .value expression])])
  node kind (chain [modifiers, role .type (rule .type), listOf (role .declarator declarator),
    sign ";"])

/-- The members of a type whose fields are of the given kind. -/
def members (kind : Kind) : Grammar Phrase :=
  many (choice [sign ";", rule .typeDeclaration, fields kind])

/-- A body in braces. -/
def body (parts : List (Grammar Phrase)) : Grammar Phrase :=
  role .body (node .typeBody (chain ([sign "\x7b"] ++ parts ++ [sign "\x7d"])))

/-- The rule of the declaration of a type. -/
def typeDeclaration : Grammar Phrase :=
  let start (keyword : String) := chain [modifiers, sign keyword, role .name identifier]
  let superclass := optional (plain [sign "extends", rule .type])
  let constant := plain [modifiers, role .name identifier]
  choice [
    node .classDeclaration (chain [start "class", superclass, typesAfter "implements",
      body [members .fieldDeclaration]]),
    node .interfaceDeclaration (chain [start "interface", typesAfter "extends",
      body [members .constantDeclaration]]),
    node .annotationDeclaration (chain [start "@interface",
      body [members .constantDeclaration]]),
    node .enumDeclaration (chain [start "enum", typesAfter "implements",
      body [optional (listOf constant), optional (sign ","),
        optional (node .enumMembers (chain [sign ";", members .fieldDeclaration]))]])]

/-- The declarations of a text. -/
def declarations : Grammar Phrase :=
  let package := node .packageDeclaration (chain [sign "package", dottedName, sign ";"])
  let star := chain [sign ".", node .asterisk (sign "*")]
  let imported := node .importDeclaration (chain [sign "import", optional (sign "static"),
    dottedName, optional star, sign ";"])
  many (choice [sign ";", package, imported, rule .typeDeclaration])

/-- The rules of plain texts. -/
def grammar : Phrase → Grammar Phrase
  | .type => type
  | .annotationUse => annotationUse
  | .sum level => sum level
  | .operand => operand
  | .typeDeclaration => typeDeclaration

/-- The bytes of a text without a byte order mark and the white space in front. -/
def whole (source : String) : Extent :=
  let cs := source.toList
  let body := (if cs.head? = some '\uFEFF' then cs.tail else cs).dropWhile isSpace
  ⟨byteLength cs - byteLength body, byteLength cs⟩

/-- The tree of a text, if it is plain. -/
def tree? (source : String) : Option Node := do
  let tokens ← tokens? source
  let fuel := 100 * (tokens.length + 2)
  match ← Grammar.run grammar fuel declarations [] tokens with
  | (nodes, []) => some (.mk .program none (whole source) false nodes)
  | _ => none

end Plain

end ViewBinding.Java
