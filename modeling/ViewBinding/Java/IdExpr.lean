import ViewBinding.Java.Tree
import ViewBinding.Text.Blank

/-!
# Expressions for view ids

A view id is given by an expression: literals, names of constants, parentheses and operators. The
part of a syntax tree that gives it is turned into a `ViewBinding.Java.IdExpr`, which keeps the
spelling of the parts that matter and, for every part, its extent, so that an error can say where
it arose. What cannot be part of a constant expression becomes a
`ViewBinding.Java.IdExpr.other`.
-/

namespace ViewBinding.Java

open Text

/-- An expression that may denote a view id. -/
inductive IdExpr
  /-- A literal of an integer, with its text. -/
  | literal (kind : Literal) (text : String) (place : Extent)
  /-- An expression in parentheses. -/
  | group (inner : IdExpr) (place : Extent)
  /-- An operator and its operand. -/
  | unary (operator : String) (operand : IdExpr) (place : Extent)
  /-- An operator between two operands. -/
  | binary (operator : String) (left right : IdExpr) (place : Extent)
  /-- The simple name of a constant. -/
  | name (name : String) (place : Extent)
  /-- The name of a constant after what it is selected from. -/
  | select (object name : String) (place : Extent)
  /-- Anything else. -/
  | other (place : Extent)
deriving DecidableEq, Repr, Inhabited

namespace IdExpr

/-- Where the expression stands. -/
def place : IdExpr → Extent
  | .literal _ _ place | .group _ place | .unary _ _ place | .binary _ _ _ place
  | .name _ place | .select _ _ place | .other place => place

/-- Whether a literal is one of an integer. -/
def isInteger : Java.Literal → Bool
  | .decimal | .hex | .octal | .binary => true
  | _ => false

/-- The expression of a node of that kind and extent, given its children with their
expressions. -/
def assemble (source : String) (kind : Kind) (place : Extent) (parts : List (Node × IdExpr)) :
    IdExpr :=
  let part (role : Role) := parts.find? fun part => part.1.role == some role
  let selection (object? field? : Option (Node × IdExpr)) : IdExpr :=
    match object?, field? with
    | some (object, _), some (field, _) =>
      .select (String.ofList (compact (object.textIn source).toList)) (field.textIn source) place
    | _, _ => .other place
  match kind with
  | .literal l =>
    if isInteger l then .literal l (place.textIn source) place else .other place
  | .parenthesized =>
    match parts.find? fun part => part.1.kind.isNamed with
    | some (_, inner) => .group inner place
    | none => .other place
  | .unary =>
    match part .operator, part .operand with
    | some (operator, _), some (_, operand) => .unary (operator.textIn source) operand place
    | _, _ => .other place
  | .binary =>
    match part .left, part .operator, part .right with
    | some (_, left), some (operator, _), some (_, right) =>
      .binary (operator.textIn source) left right place
    | _, _, _ => .other place
  | .identifier => .name (place.textIn source) place
  | .fieldAccess => selection (part .object) (part .field)
  | .scopedName => selection (part .scope) (part .name)
  | _ => .other place

mutual

/-- The expression that a node of the tree of `source` gives. -/
def ofNode (source : String) : Node → IdExpr
  | .mk kind _ extent _ children => assemble source kind extent (ofNodes source children)

/-- The nodes with the expressions that they give. -/
def ofNodes (source : String) : List Node → List (Node × IdExpr)
  | [] => []
  | c :: cs => (c, ofNode source c) :: ofNodes source cs

end

end IdExpr

end ViewBinding.Java
