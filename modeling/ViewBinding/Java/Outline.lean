import ViewBinding.Java.Tree

/-!
# The declarations of a text

Of a syntax tree the round only looks at the types that it declares and at the members of their
bodies. `ViewBinding.Java.outline` lists both in the order of the text: a type is listed with the
chain of its names before its members, and the members of a type declared inside another stand
where that type stands. Declarations inside methods, initializers and the bodies of enum constants
are not members of a type body and are not listed.
-/

namespace ViewBinding.Java

/-- A declared type or a member of one that is not a type itself. -/
inductive Entry
  /-- A declared type, by the names of the types around it and its own. -/
  | type (nesting : List String)
  /-- A member of the type of that nesting, which is declared as the given kind. -/
  | member (nesting : List String) (holder : Kind) (node : Node)
deriving Repr, Inhabited

mutual

/-- What a child of a body, or a statement of the text, brings. -/
def entriesOf (source : String) (outer : List String) (holder : Kind) : Node → List Entry
  | .mk kind role extent isAbsent children =>
    if kind.declaresType then
      match children.find? fun c => c.role == some Role.name with
      | none => []
      | some name =>
        let nesting := outer ++ [name.textIn source]
        .type nesting :: entriesOfBody source nesting kind children
    else if kind.isNamed then [.member outer holder (.mk kind role extent isAbsent children)]
    else []

/-- What the first body among the children of a declaration brings. -/
def entriesOfBody (source : String) (nesting : List String) (holder : Kind) :
    List Node → List Entry
  | [] => []
  | c :: cs =>
    if c.role == some Role.body then entriesIn source nesting holder c
    else entriesOfBody source nesting holder cs

/-- What the members in a body bring. -/
def entriesIn (source : String) (nesting : List String) (holder : Kind) : Node → List Entry
  | .mk _ _ _ _ children => entriesAmong source nesting holder children

/-- What the members in a list bring; those of an enum stand one level deeper. -/
def entriesAmong (source : String) (nesting : List String) (holder : Kind) :
    List Node → List Entry
  | [] => []
  | c :: cs =>
    (if c.kind == .enumMembers then entriesIn source nesting holder c
      else entriesOf source nesting holder c) ++ entriesAmong source nesting holder cs

end

/-- What the statements of a text bring. -/
def entriesAtTop (source : String) : List Node → List Entry
  | [] => []
  | c :: cs =>
    (if c.kind.declaresType then entriesOf source [] .program c else [])
      ++ entriesAtTop source cs

/-- The declared types and their members, in the order of the text. -/
def outline (source : String) (root : Node) : List Entry :=
  entriesAtTop source root.children

/-- The nestings of the types declared, in the order of the text. -/
def declaredTypes (entries : List Entry) : List (List String) :=
  entries.filterMap fun
    | .type nesting => some nesting
    | .member .. => none

namespace Node

/-- The modifiers of a declaration. -/
def modifiers? (n : Node) : Option Node :=
  n.childOf? .modifiers

/-- The keyword among the modifiers of a declaration. -/
def modifier? (n : Node) (keyword : String) : Option Node :=
  n.modifiers?.bind fun modifiers => modifiers.childOf? (.sign keyword)

end Node

end ViewBinding.Java
