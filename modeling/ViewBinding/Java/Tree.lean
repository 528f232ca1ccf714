import ViewBinding.Text.Extent

/-!
# Syntax trees

The tree of a Java text, with the places where the text is not Java marked in it. A
`ViewBinding.Java.Node` has a kind, the bytes it covers, its children in the order of the text,
and, if its parent tells its children apart, the role it plays there.

Two kinds of nodes mark a place that is not Java: one of kind `ViewBinding.Java.Kind.fault` covers
text that was passed over, and one that `ViewBinding.Java.Node.isAbsent` stands, covering nothing,
for a token that the text lacks.

Only the kinds that something depends on have a name of their own; all other constructs of the
language are a `ViewBinding.Java.Kind.construct`.
-/

namespace ViewBinding.Java

open Text

/-- The kinds of literals. -/
inductive Literal
  | decimal
  | hex
  | octal
  | binary
  | real
  | character
  | string
deriving DecidableEq, Repr, Inhabited

/-- What a node of a syntax tree is. -/
inductive Kind
  /-- A whole text. -/
  | program
  | packageDeclaration
  | importDeclaration
  | classDeclaration
  | enumDeclaration
  | recordDeclaration
  | interfaceDeclaration
  | annotationDeclaration
  /-- The braces of a type declaration with its members. -/
  | typeBody
  /-- The members of an enum, after its constants. -/
  | enumMembers
  | modifiers
  /-- An annotation with arguments. -/
  | annotationUse
  /-- An annotation without arguments. -/
  | annotationMarker
  | annotationArguments
  /-- A named argument of an annotation. -/
  | elementPair
  /-- A declaration of fields in a class, an enum or a record. -/
  | fieldDeclaration
  /-- A declaration of fields in an interface or an annotation type. -/
  | constantDeclaration
  /-- One name declared, with its array brackets and its value. -/
  | declarator
  | dimensions
  | identifier
  /-- A dotted name. -/
  | scopedName
  | fieldAccess
  | arrayAccess
  | literal (kind : Literal)
  | parenthesized
  | unary
  | binary
  | assignment
  /-- The star of an import on demand. -/
  | asterisk
  /-- Any other construct. -/
  | construct
  /-- A keyword or a sign, with its text. -/
  | sign (text : String)
  /-- A token that the text lacks and that is neither a name nor a literal, a keyword or a sign,
  with what messages call it. -/
  | lacking (name : String)
  /-- Text passed over. -/
  | fault
deriving DecidableEq, Repr, Inhabited

namespace Kind

/-- Whether the kind stands for more than a keyword or a sign. -/
def isNamed : Kind → Bool
  | sign _ => false
  | _ => true

/-- Whether the kind declares a type. -/
def declaresType : Kind → Bool
  | classDeclaration | enumDeclaration | recordDeclaration | interfaceDeclaration
  | annotationDeclaration => true
  | _ => false

/-- Whether the fields declared inside are constants without being marked so. -/
def holdsConstants : Kind → Bool
  | interfaceDeclaration | annotationDeclaration => true
  | _ => false

end Kind

/-- The role that a child plays in its parent. -/
inductive Role
  | name
  | body
  | type
  | declarator
  | dimensions
  | value
  | arguments
  | key
  | left
  | right
  | operator
  | operand
  | object
  | field
  | scope
deriving DecidableEq, Repr

/-- A node of a syntax tree. -/
inductive Node
  | mk (kind : Kind) (role : Option Role) (extent : Extent) (isAbsent : Bool)
    (children : List Node)
deriving Repr

namespace Node

/-- What the node is. -/
def kind : Node → Kind
  | mk kind _ _ _ _ => kind

/-- The role of the node in its parent. -/
def role : Node → Option Role
  | mk _ role _ _ _ => role

/-- The bytes that the node covers. -/
def extent : Node → Extent
  | mk _ _ extent _ _ => extent

/-- Whether the node stands for a token that the text lacks. -/
def isAbsent : Node → Bool
  | mk _ _ _ isAbsent _ => isAbsent

/-- The children in the order of the text. -/
def children : Node → List Node
  | mk _ _ _ _ children => children

instance : Inhabited Node := ⟨mk .fault none ⟨0, 0⟩ false []⟩

/-- A node without children. -/
def leaf (kind : Kind) (extent : Extent) : Node :=
  mk kind none extent false []

/-- A node over the children, from the start of the first to the end of the last. -/
def spanning (kind : Kind) (children : List Node) : Node :=
  let extent :=
    match children.head?, children.getLast? with
    | some first, some last => first.extent.through last.extent
    | _, _ => ⟨0, 0⟩
  mk kind none extent false children

/-- The node in the given role. -/
def withRole (role : Role) : Node → Node
  | mk kind _ extent isAbsent children => mk kind (some role) extent isAbsent children

/-- The text that the node covers. -/
def textIn (n : Node) (source : String) : String :=
  n.extent.textIn source

/-- The first child in the role. -/
def child? (n : Node) (role : Role) : Option Node :=
  n.children.find? fun c => c.role == some role

/-- The children in the role. -/
def childrenIn (n : Node) (role : Role) : List Node :=
  n.children.filter fun c => c.role == some role

/-- The first child of the kind. -/
def childOf? (n : Node) (kind : Kind) : Option Node :=
  n.children.find? fun c => c.kind == kind

/-- The children that are more than a keyword or a sign. -/
def namedChildren (n : Node) : List Node :=
  n.children.filter fun c => c.kind.isNamed

@[simp] theorem kind_mk (k r e a cs) : (mk k r e a cs).kind = k := rfl
@[simp] theorem role_mk (k r e a cs) : (mk k r e a cs).role = r := rfl
@[simp] theorem extent_mk (k r e a cs) : (mk k r e a cs).extent = e := rfl
@[simp] theorem isAbsent_mk (k r e a cs) : (mk k r e a cs).isAbsent = a := rfl
@[simp] theorem children_mk (k r e a cs) : (mk k r e a cs).children = cs := rfl

end Node

end ViewBinding.Java
