import ViewBinding.Java.Language
import ViewBinding.Java.Tree
import ViewBinding.Parsing.Reader

/-!
# Trees of texts that are not Java

Every text has a syntax tree: where it does not follow the grammar, something is passed over or a
token that it lacks is supplied, in the cheapest way (`ViewBinding.Parsing.Setting.read`).
`ViewBinding.Java.Tolerant.tree` is that tree with its places in the text. A node starts where its
first child starts and ends where its last child ends, and its children follow one another.
-/

namespace ViewBinding.Java.Tolerant

open Parsing Text

/-- The table of the language, which is made once. -/
def table : Thunk Table :=
  .mk fun _ => .ofLanguage language

/-! ### Kinds and roles -/

/-- The tokens that are nodes of a kind of their own. -/
def tokenKinds : List (String × Kind) := [
  ("identifier", .identifier),
  ("decimal_integer_literal", .literal .decimal),
  ("hex_integer_literal", .literal .hex),
  ("octal_integer_literal", .literal .octal),
  ("binary_integer_literal", .literal .binary),
  ("decimal_floating_point_literal", .literal .real),
  ("hex_floating_point_literal", .literal .real),
  ("character_literal", .literal .character)]

/-- The words that are constructs of the language by themselves. -/
def wordConstructs : List String :=
  ["true", "false", "null_literal", "underscore_pattern", "boolean_type", "void_type", "this",
    "super"]

/-- The kind of a token of the terminal under the given name: keywords and signs are kinds of their
own. -/
def tokenKind (t : Terminal) (name : String) (isAbsent : Bool) : Kind :=
  match tokenKinds.lookup name with
  | some kind => kind
  | none =>
    if t.isSpelled && t.name == name && !wordConstructs.contains name then .sign name
    else if isAbsent then .lacking name
    else .construct

/-- The kinds of nodes that are not just a construct, by the names of their rules. -/
def ruleKinds : List (String × Kind) := [
  ("program", .program),
  ("package", .packageDeclaration),
  ("import", .importDeclaration),
  ("class", .classDeclaration),
  ("enum", .enumDeclaration),
  ("record", .recordDeclaration),
  ("interface", .interfaceDeclaration),
  ("annotationType", .annotationDeclaration),
  ("classBody", .typeBody),
  ("enumBody", .typeBody),
  ("interfaceBody", .typeBody),
  ("annotationTypeBody", .typeBody),
  ("enumMembers", .enumMembers),
  ("modifiers", .modifiers),
  ("annotation", .annotationUse),
  ("annotationMarker", .annotationMarker),
  ("annotationArguments", .annotationArguments),
  ("elementPair", .elementPair),
  ("fields", .fieldDeclaration),
  ("constants", .constantDeclaration),
  ("declarator", .declarator),
  ("dimensions", .dimensions),
  ("scopedName", .scopedName),
  ("fieldAccess", .fieldAccess),
  ("arrayAccess", .arrayAccess),
  ("text", .literal .string),
  ("parenthesized", .parenthesized),
  ("unary", .unary),
  ("binary", .binary),
  ("assignment", .assignment),
  ("asterisk", .asterisk)]

/-- The kind of the nodes of a rule. -/
def ruleKind (name : String) : Kind :=
  (ruleKinds.lookup name).getD .construct

/-- The roles that something depends on, by their names in the rules. -/
def roles : List (String × Role) := [
  ("name", .name), ("body", .body), ("type", .type), ("declarator", .declarator),
  ("dimensions", .dimensions), ("value", .value), ("arguments", .arguments), ("key", .key),
  ("left", .left), ("right", .right), ("operator", .operator), ("operand", .operand),
  ("object", .object), ("field", .field), ("scope", .scope)]

/-! ### Places -/

/-- Nodes that follow one another, with the places where what they stand for starts and ends. -/
structure Placed where
  nodes : List Node
  start : Nat
  stop : Nat

/-- The bytes between two places. -/
def extent (page : Page) (start stop : Nat) : Extent :=
  ⟨(page.upTo start).bytes, (page.upTo stop).bytes⟩

/-- The kind of the nodes that a subtree makes under the given name, if it makes any. Comments make
none. -/
def kind? (t : Table) (name : Option String) (f : Facts) : Option Kind :=
  match f.label with
  | .fault => some .fault
  | .run => none
  | .nonterminal n =>
    if f.isShown || name.isSome then
      some (ruleKind (((t.productions.nonterminals[n]?).map (·.name)).getD ""))
    else none
  | .terminal 0 => none
  | .terminal (n + 1) =>
    if t.productions.extras.contains (n + 1) || !(f.isShown || name.isSome) then none
    else (t.productions.terminals[n]?).map fun terminal =>
      tokenKind terminal (name.getD terminal.name) f.isAbsent

/-- What becomes of the children of a subtree. -/
def shapeOf (t : Table) (f : Facts) : Shape :=
  match f.label with
  | .nonterminal _ => t.shapes.getD f.shape default
  | _ => default

mutual

/-- The nodes of a subtree in the role and under the name, where the space in front of it starts at
`place`. -/
def place (t : Table) (page : Page) (role : Option Role) (name : Option String) (offset : Nat) :
    Subtree → Placed
  | .mk f children =>
    let inner : Placed :=
      if children.isEmpty then
        let start := offset + f.gap.chars
        ⟨[], start, start + f.size.chars⟩
      else
        placeAll t page (shapeOf t f) (if (kind? t name f).isSome then none else role) 0 offset
          children
    match kind? t name f with
    | some kind =>
      { inner with
        nodes := [.mk kind role (extent page inner.start inner.stop) f.isAbsent inner.nodes] }
    | none => inner

/-- The nodes of subtrees that follow one another, the first of them being the child of the number
`index`. Those without a role of their own are in the role `outer`. -/
def placeAll (t : Table) (page : Page) (shape : Shape) (outer : Option Role) (index offset : Nat) :
    List Subtree → Placed
  | [] => ⟨[], offset, offset⟩
  | c :: rest =>
    let first :=
      if c.isExtra then place t page none none offset c
      else
        let own := (shape.roles.lookup index).bind fun part => roles.lookup part
        place t page (own.or outer) ((shape.names[index]?).join) offset c
    let others :=
      placeAll t page shape outer (if c.isExtra then index else index + 1) first.stop rest
    ⟨first.nodes ++ others.nodes, first.start, others.stop⟩

end

/-- The tree of the text. -/
def tree (source : String) : Node :=
  let page := Page.ofChars source.toList
  let whole := Node.leaf .fault (extent page page.start page.size)
  match (Setting.mk table.get page).read with
  | none => whole
  | some root => (place table.get page none none 0 root).nodes.headD whole

end ViewBinding.Java.Tolerant
